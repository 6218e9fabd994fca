import RoundTable.Contract.Deployment
import RoundTable.Contract.Lamports

set_option autoImplicit false

namespace RoundTable.Contract

-- The account list of a table instruction goes on with the table, that of a seat instruction with
-- the owner of the table.
def RoundNetInstruction.command (user first : AccountInfo) : RoundNetInstruction → Command
  | .InitTable closed => .create user.key closed
  | .DeleteTable => .delete user.key
  | .AddSeat channelKey => .sit first.key user.key first.isSigner ⟨channelKey⟩
  | .RemoveSeat => .leave first.key user.key first.isSigner
  | instruction => .edit user.key instruction

namespace Step

def command : Step → Option Command
  | .call (user :: _ :: first :: _) input =>
    (Borsh.tryFromSlice RoundNetInstruction.deserialize input).map fun instruction =>
      instruction.command user first
  | _ => none

def deletes (address : PublicKey) (step : Step) : Bool :=
  (step.asks address).any RoundNetInstruction.deletes

end Step

def commandsFor (owner : PublicKey) (history : List Step) : List Command :=
  (history.filterMap Step.command).filter fun command => command.place.tableOwner = owner

-- No step mentions an account that a step before it has deleted.
def LeavesDeleted (transaction : List Step) : Prop :=
  transaction.Pairwise fun earlier later =>
    ∀ address, earlier.deletes address = true → later.mentions address = false

-- An account that holds data belongs to the program and has at least its rent.
def Place.Holds (runtime : Runtime) (programId : PublicKey) (account : Account) (place : Place) :
    Option (List UInt8) → Prop
  | none => account.data = []
  | some data => account.data = data ∧ account.owner = programId ∧
      runtime.rentDue place.size ≤ account.lamports

/-- The accounts at the places hold the deployment, those that were deleted in the running
transaction aside. -/
structure Deployment.On (runtime : Runtime) (programId : PublicKey) (known : Set PublicKey)
    (deployment : Deployment) (deleted : Place → Prop) (ledger : Ledger) : Prop where
  held : ∀ place, place.Within known → ¬deleted place →
    place.Holds runtime programId (ledger (place.address runtime programId))
      (deployment.held place)
  gone : ∀ place, place.Within known → deleted place →
    deployment.held place = none ∧ (ledger (place.address runtime programId)).lamports = 0

section Steps

variable {runtime : Runtime} {programId : PublicKey} {known : Set PublicKey} {place : Place}
  {account account' : Account} {deployment : Deployment} {deleted : Place → Prop}
  {ledger ledger' : Ledger} {step : Step} {user program first : AccountInfo}
  {others : List AccountInfo} {instruction : RoundNetInstruction}

theorem Place.Holds.fits (holds : place.Holds runtime programId account (deployment.held place)) :
    place.Fits programId account := by
  cases place with
  | table owner =>
    cases present : deployment.table owner with
    | none =>
      simp only [Deployment.held, present] at holds
      exact .inl holds
    | some table =>
      simp only [Deployment.held, present] at holds
      exact .inr ⟨holds.2.1, table, holds.1⟩
  | seat owner sitter =>
    cases present : deployment.seat owner sitter with
    | none =>
      simp only [Deployment.held, present] at holds
      exact .inl holds
    | some seat =>
      simp only [Deployment.held, present] at holds
      exact .inr ⟨holds.2.1, seat, holds.1⟩

theorem Place.Holds.none_iff
    (holds : place.Holds runtime programId account (deployment.held place)) :
    deployment.held place = none ↔ account.data = [] := by
  cases held : deployment.held place with
  | none =>
    rw [held] at holds
    exact ⟨fun _ => holds, fun _ => rfl⟩
  | some data =>
    rw [held] at holds
    simp [holds.1, deployment.held_ne_nil held]

theorem Place.Holds.data_eq {held : Option (List UInt8)}
    (holds : place.Holds runtime programId account held)
    (holds' : place.Holds runtime programId account' held) : account.data = account'.data := by
  cases held with
  | none => exact Eq.trans holds (Eq.symm holds')
  | some data => exact holds.1.trans holds'.1.symm

theorem Change.holds {held : Option (List UInt8)} (foreign : programId ≠ systemProgramId)
    (change : Change runtime programId place step account account')
    (unasked : step.asks (place.address runtime programId) = none)
    (holds : place.Holds runtime programId account held) :
    place.Holds runtime programId account' held := by
  cases change with
  | received amount unasked funded change =>
    subst change
    cases held with
    | none => exact holds
    | some data => exact ⟨holds.1, holds.2.1, Nat.le_add_right_of_le holds.2.2⟩
  | spent lamports unasked owned change =>
    subst change
    cases held with
    | none => exact holds
    | some data => exact absurd (holds.2.1.symm.trans owned) foreign
  | did asked => cases unasked.symm.trans asked

theorem RoundNetInstruction.slot_command :
    (instruction.command user first).place.slot = instruction.slot := by
  cases instruction <;> rfl

theorem RoundNetInstruction.within_command (userKnown : user.key ∈ known)
    (firstKnown : first.key ∈ known) : (instruction.command user first).place.Within known := by
  cases instruction with
  | AddSeat channelKey => exact ⟨firstKnown, userKnown⟩
  | RemoveSeat => exact ⟨firstKnown, userKnown⟩
  | _ => exact userKnown

theorem RoundNetInstruction.Does.apply
    (does : instruction.Does programId account account')
    (left : account'.lamports = instruction.left runtime account)
    (holds : (instruction.command user first).place.Holds runtime programId account
      (deployment.held (instruction.command user first).place))
    (admitted : instruction.slot = 4 → deployment.admits first.key first.isSigner = true) :
    ∃ deployment', deployment.apply (instruction.command user first) = some deployment' ∧
      if instruction.deletes then
        deployment'.held (instruction.command user first).place = none ∧ account'.lamports = 0
      else (instruction.command user first).place.Holds runtime programId account'
        (deployment'.held (instruction.command user first).place) := by
  cases instruction with
  | InitTable closed =>
    obtain ⟨absent, data, owner, funded⟩ := does
    cases present : deployment.table user.key with
    | none =>
      refine ⟨_, if_pos present, ?_⟩
      have rent : runtime.rentDue TABLE_DATA_SIZE ≤ account'.lamports := left ▸ le_max_right _ _
      simpa [deletes, command, Command.place, Place.Holds, Place.size] using ⟨data, owner, rent⟩
    | some table =>
      simp only [command, Command.place, Deployment.held, present] at holds
      exact absurd (holds.1.symm.trans absent) table.serialize_ne_nil
  | DeleteTable =>
    obtain ⟨present, rfl⟩ := does
    cases found : deployment.table user.key with
    | none =>
      simp only [command, Command.place, Deployment.held, found] at holds
      exact absurd holds present
    | some table =>
      refine ⟨deployment.setTable user.key none, by simp [command, Deployment.apply, found], ?_⟩
      simp [deletes, command, Command.place]
  | AddSeat channelKey =>
    obtain ⟨data, rest⟩ := does
    refine ⟨_, if_pos (admitted rfl), ?_⟩
    simp only [deletes, command, Command.place, Deployment.held_setSeat, Option.map_some]
    refine ⟨data, ?_⟩
    split_ifs at rest with absent
    · rw [RoundNetInstruction.left, if_pos absent] at left
      exact ⟨rest.1, left ▸ le_max_right _ _⟩
    · cases found : deployment.seat first.key user.key with
      | none =>
        simp only [command, Command.place, Deployment.held, found] at holds
        exact absurd holds absent
      | some seat =>
        simp only [command, Command.place, Deployment.held, found] at holds
        exact ⟨rest.1.trans holds.2.1, by rw [rest.2]; exact holds.2.2⟩
  | RemoveSeat =>
    obtain rfl := does
    refine ⟨_, if_pos (admitted rfl), ?_⟩
    simp [deletes, command, Command.place]
  | AddBootstrap | RemoveBootstrap | AddChannelArgs | RemoveChannelArgs =>
    obtain ⟨table, table', data, edited, rfl⟩ := RoundNetInstruction.does_of_edited rfl does
    cases found : deployment.table user.key with
    | none =>
      simp only [command, Command.place, Deployment.held, found] at holds
      exact absurd (data.symm.trans holds) table.serialize_ne_nil
    | some table'' =>
      simp only [command, Command.place, Deployment.held, found] at holds
      obtain rfl := TableData.serialize_injective (data.symm.trans holds.1)
      refine ⟨deployment.setTable user.key (some table'), ?_, ?_⟩
      · simp [command, Deployment.apply, found, edited, Except.toOption]
      · simpa [deletes, command, Command.place, Place.Holds] using holds.2

theorem Handled.command_address
    (handled : Handled runtime ⟨user, program, others⟩ ledger ledger' instruction) :
    ∃ first, others[0]? = some first ∧ ∀ account : AccountInfo,
      (user :: program :: others)[instruction.slot]? = some account →
        account.key = (instruction.command user first).place.address runtime program.key := by
  cases handled with
  | initTable listed address absent creation change =>
    exact ⟨_, listed, fun account found => Option.some.inj (found.symm.trans listed) ▸ address⟩
  | deleteTable listed address change =>
    exact ⟨_, listed, fun account found => Option.some.inj (found.symm.trans listed) ▸ address⟩
  | edited edits listed address long fits change =>
    refine ⟨_, listed, fun account found => ?_⟩
    rw [RoundNetInstruction.slot_of_edited (Option.isSome_of_eq_some edits)] at found
    obtain rfl := Option.some.inj (found.symm.trans listed)
    cases instruction <;> first | exact address | cases edits
  | addSeat checked creation long change =>
    exact ⟨_, checked.ownerListed,
      fun account found => Option.some.inj (found.symm.trans checked.seatListed) ▸ checked.seatKey⟩
  | removeSeat checked change =>
    exact ⟨_, checked.ownerListed,
      fun account found => Option.some.inj (found.symm.trans checked.seatListed) ▸ checked.seatKey⟩

-- What the program has read from the table decides as the deployment does.
theorem SeatChecked.admits {owner table seat : AccountInfo}
    (checked : SeatChecked runtime ⟨user, program, others⟩ ledger owner table seat)
    (holds : (Place.table owner.key).Holds runtime program.key (ledger table.key)
      (deployment.held (.table owner.key))) :
    deployment.admits owner.key owner.isSigner = true := by
  obtain ⟨tableData, rest, read, approved⟩ := checked.approved
  cases found : deployment.table owner.key with
  | none =>
    simp only [Deployment.held, found, Option.map_none] at holds
    rw [show (ledger table.key).data = [] from holds] at read
    cases read
  | some present =>
    simp only [Deployment.held, found, Option.map_some] at holds
    have same := present.deserialize_append []
    rw [List.append_nil, ← holds.1, read] at same
    obtain ⟨rfl, -⟩ := Prod.mk.inj (Option.some.inj same)
    rw [Deployment.admits, found]
    cases closed : tableData.closed with
    | false => simp [closed]
    | true => simp [approved closed]

theorem Handled.admits
    (handled : Handled runtime ⟨user, program, others⟩ ledger ledger' instruction)
    (listed : others[0]? = some first) (isSeat : instruction.slot = 4)
    (holds : ∀ table, others[1]? = some table →
      table.key = tableAddress runtime program.key first.key →
        (Place.table first.key).Holds runtime program.key (ledger table.key)
          (deployment.held (.table first.key))) :
    deployment.admits first.key first.isSigner = true := by
  cases handled with
  | addSeat checked creation long change =>
    obtain rfl := Option.some.inj (listed.symm.trans checked.ownerListed)
    exact checked.admits (holds _ checked.tableListed checked.tableKey)
  | removeSeat checked change =>
    obtain rfl := Option.some.inj (listed.symm.trans checked.ownerListed)
    exact checked.admits (holds _ checked.tableListed checked.tableKey)
  | edited edits =>
    rw [RoundNetInstruction.slot_of_edited (Option.isSome_of_eq_some edits)] at isSeat
    cases isSeat
  | initTable | deleteTable => cases isSeat

theorem Step.execute_unmentioned (documented : runtime.Documented) {address : PublicKey}
    (genuine : step.Genuine runtime programId known) (unmentioned : step.mentions address = false)
    (executed : step.execute runtime programId ledger = some ledger') :
    ledger' address = ledger address := by
  cases step with
  | call accounts input =>
    simp only [Step.execute] at executed
    split at executed
    next _ done =>
      obtain rfl := Option.some.inj executed
      obtain ⟨user, program, others, instruction, rfl, -, rfl, -, handled⟩ :=
        processInstruction_ok documented done
      obtain ⟨account, place, listed, -, -, -, frame⟩ := handled.slot genuine.1
      have other : ∀ account ∈ user :: program :: others, address ≠ account.key := by
        intro account member same
        simp only [Step.mentions, List.any_eq_false, decide_eq_true_eq] at unmentioned
        exact unmentioned account member same.symm
      exact frame address (other account (List.mem_of_getElem? listed)) (other user (by simp))
    next => cases executed
  | transfer source destination lamports signers =>
    obtain ⟨-, -, rfl⟩ := documented.transfer _ _ _ _ _ _ executed
    simp only [Step.mentions, Bool.or_eq_false_iff, decide_eq_false_iff_not] at unmentioned
    exact Ledger.transfer_ne (Ne.symm unmentioned.1) (Ne.symm unmentioned.2) ledger lamports

variable (documented : runtime.Documented) (distinct : runtime.Distinct programId known)
  (foreign : programId ≠ systemProgramId)

include documented distinct foreign

theorem Step.keeps_held (genuine : step.Genuine runtime programId known)
    (on : deployment.On runtime programId known deleted ledger) (within : place.Within known)
    (kept : ¬deleted place) (unasked : step.asks (place.address runtime programId) = none)
    (executed : step.execute runtime programId ledger = some ledger') :
    place.Holds runtime programId (ledger' (place.address runtime programId))
      (deployment.held place) := by
  have holds := on.held place within kept
  exact (step.change documented distinct place within genuine holds.fits executed).holds foreign
    unasked holds

omit foreign in
theorem Step.call_applied {accounts : List AccountInfo} {input : List UInt8}
    (genuine : (Step.call accounts input).Genuine runtime programId known)
    (on : deployment.On runtime programId known deleted ledger)
    (apart : ∀ place : Place, place.Within known → deleted place →
      (Step.call accounts input).mentions (place.address runtime programId) = false)
    (executed : (Step.call accounts input).execute runtime programId ledger = some ledger') :
    ∃ command deployment', (Step.call accounts input).command = some command ∧
      deployment.apply command = some deployment' ∧ command.place.Within known ∧
      ¬deleted command.place ∧
      (∀ place : Place, place.Within known → place ≠ command.place →
        (Step.call accounts input).asks (place.address runtime programId) = none) ∧
      if (Step.call accounts input).deletes (command.place.address runtime programId) then
        deployment'.held command.place = none ∧
          (ledger' (command.place.address runtime programId)).lamports = 0
      else command.place.Holds runtime programId
        (ledger' (command.place.address runtime programId)) (deployment'.held command.place) := by
  simp only [Step.execute] at executed
  split at executed
  next after done =>
    obtain rfl := Option.some.inj executed
    obtain ⟨user, program, others, instruction, rfl, signed, rfl, decoded, done⟩ :=
      processInstruction_ran done
    have handled := instruction.process_ok documented done
    obtain ⟨first, listed, isAddress⟩ := handled.command_address
    obtain ⟨account, _, found, -⟩ := handled.slot genuine.1
    have address := isAddress account found
    have firstMember : first ∈ user :: program :: others := by
      simp [List.mem_of_getElem? listed]
    have within : (instruction.command user first).place.Within known :=
      RoundNetInstruction.within_command (genuine.1 user (by simp)) (genuine.1 first firstMember)
    -- a listed account is mentioned, so it has not been deleted
    have present (place : Place) (placeWithin : place.Within known) (account : AccountInfo)
        (member : account ∈ user :: program :: others)
        (same : account.key = place.address runtime program.key) : ¬deleted place := by
      intro isDeleted
      have unmentioned := apart place placeWithin isDeleted
      simp only [Step.mentions, List.any_eq_false, decide_eq_true_eq] at unmentioned
      exact unmentioned account member same
    have kept := present _ within account (List.mem_of_getElem? found) address
    have holds := on.held _ within kept
    have fits := holds.fits
    have notUser := genuine.2 user (by simp) signed _ within
    rw [← address] at holds fits notUser
    have does := instruction.process_does documented found RoundNetInstruction.slot_command.symm
      fits (Ne.symm notUser) done
    have admitted (isSeat : instruction.slot = 4) :
        deployment.admits first.key first.isSigner = true := by
      apply handled.admits listed isSeat
      intro table tableListed tableKey
      have tableWithin : (Place.table first.key).Within known := genuine.1 first firstMember
      rw [tableKey]
      exact on.held _ tableWithin (present _ tableWithin table
        (by simp [List.mem_of_getElem? tableListed]) tableKey)
    have left := (instruction.process_moved documented found (Ne.symm notUser) done).left
    obtain ⟨deployment', applied, outcome⟩ := does.apply left holds admitted
    have asks (place : Place) := Step.asks_call (place.address runtime program.key) decoded found
    refine ⟨instruction.command user first, deployment', ?_, applied, within, kept, ?_, ?_⟩
    · obtain ⟨rest, rfl⟩ : ∃ rest, others = first :: rest := by
        cases others with
        | nil => cases listed
        | cons head rest => exact ⟨rest, by simpa using listed⟩
      simp [Step.command, decoded]
    · intro place placeWithin elsewhere
      rw [asks place, if_neg]
      intro same
      exact elsewhere (distinct.same _ _ placeWithin within (same.symm.trans address))
    · rw [Step.deletes, asks, if_pos address, ← address]
      exact outcome
  next => cases executed

theorem Step.replayed (genuine : step.Genuine runtime programId known)
    (on : deployment.On runtime programId known deleted ledger)
    (apart : ∀ place : Place, place.Within known → deleted place →
      step.mentions (place.address runtime programId) = false)
    (executed : step.execute runtime programId ledger = some ledger') :
    ∃ deployment', deployment.replay step.command.toList = some deployment' ∧
      deployment'.On runtime programId known
        (fun place => deleted place ∨ step.deletes (place.address runtime programId) = true)
        ledger' := by
  have unmentioned (place : Place) (within : place.Within known) (isDeleted : deleted place) :=
    Step.execute_unmentioned documented genuine (apart place within isDeleted) executed
  cases step with
  | transfer source destination lamports signers =>
    refine ⟨deployment, rfl, fun place within kept => ?_, fun place within gone => ?_⟩
    · push Not at kept
      exact Step.keeps_held documented distinct foreign genuine on within kept.1 rfl executed
    · have isDeleted : deleted place := gone.resolve_right (by simp [Step.deletes, Step.asks])
      rw [unmentioned place within isDeleted]
      exact on.gone place within isDeleted
  | call accounts input =>
    obtain ⟨command, deployment', isCommand, applied, within, kept, elsewhere, outcome⟩ :=
      Step.call_applied documented distinct genuine on apart executed
    refine ⟨deployment', by simp [isCommand, Deployment.replay_cons, applied], ?_, ?_⟩
    · intro place placeWithin notDeleted
      push Not at notDeleted
      by_cases here : place = command.place
      · subst here
        simpa [notDeleted.2] using outcome
      · rw [Deployment.apply_other applied here]
        exact Step.keeps_held documented distinct foreign genuine on placeWithin notDeleted.1
          (elsewhere place placeWithin here) executed
    · intro place placeWithin gone
      by_cases here : place = command.place
      · subst here
        simpa [gone.resolve_left kept] using outcome
      · have isDeleted : deleted place :=
          gone.resolve_right (by simp [Step.deletes, elsewhere place placeWithin here])
        rw [Deployment.apply_other applied here, unmentioned place placeWithin isDeleted]
        exact on.gone place placeWithin isDeleted

theorem executeAll_replayed {transaction : List Step}
    (genuine : ∀ step ∈ transaction, step.Genuine runtime programId known)
    (leaves : LeavesDeleted transaction)
    (on : deployment.On runtime programId known deleted ledger)
    (apart : ∀ place : Place, place.Within known → deleted place → ∀ step ∈ transaction,
      step.mentions (place.address runtime programId) = false)
    (done : executeAll runtime programId ledger transaction = some ledger') :
    ∃ deployment' deleted', deployment.replay (transaction.filterMap Step.command) =
        some deployment' ∧ deployment'.On runtime programId known deleted' ledger' := by
  induction transaction generalizing ledger deployment deleted with
  | nil =>
    obtain rfl := Option.some.inj done
    exact ⟨deployment, deleted, rfl, on⟩
  | cons step transaction ih =>
    obtain ⟨middle, executed, rest⟩ := executeAll_cons.mp done
    obtain ⟨stepLeaves, restLeaves⟩ := List.pairwise_cons.mp leaves
    obtain ⟨next, applied, onNext⟩ := Step.replayed documented distinct foreign
      (genuine step (by simp)) on (fun place within gone => apart place within gone step (by simp))
      executed
    obtain ⟨deployment', deleted', replayed, on'⟩ := ih
      (fun later member => genuine later (by simp [member])) restLeaves onNext
      (fun place within gone later member => gone.elim
        (fun already => apart place within already later (by simp [member]))
        (fun now => stepLeaves later member _ now)) rest
    refine ⟨deployment', deleted', ?_, on'⟩
    have split : (step :: transaction).filterMap Step.command =
        step.command.toList ++ transaction.filterMap Step.command := by
      cases asked : step.command <;> simp [asked]
    rw [split, Deployment.replay_append, applied]
    exact replayed

omit distinct foreign in
theorem Deployment.On.purge (on : deployment.On runtime programId known deleted ledger) :
    deployment.On runtime programId known (fun _ => False) ledger.purge := by
  refine ⟨fun place within _ => ?_, fun place within gone => gone.elim⟩
  by_cases poor : (ledger (place.address runtime programId)).lamports = 0
  · have absent : ledger.purge (place.address runtime programId) = .absent := if_pos poor
    rw [absent]
    by_cases isDeleted : deleted place
    · rw [(on.gone place within isDeleted).1]
      rfl
    · have holds := on.held place within isDeleted
      cases held : deployment.held place with
      | none => rfl
      | some data =>
        rw [held] at holds
        exact absurd poor ((documented.rent place.size).trans_le holds.2.2).ne'
  · have kept : ledger.purge (place.address runtime programId) =
        ledger (place.address runtime programId) := if_neg poor
    rw [kept]
    exact on.held place within fun isDeleted => poor (on.gone place within isDeleted).2

/-- The deployment takes the commands of a chain's history, in their order, and refuses none. What
it is then is what the accounts hold. -/
theorem chain_replayed {initial : Ledger} {transactions : List (List Step)}
    (genuine : ∀ transaction ∈ transactions, ∀ step ∈ transaction,
      step.Genuine runtime programId known)
    (leaves : ∀ transaction ∈ transactions, LeavesDeleted transaction)
    (on : deployment.On runtime programId known (fun _ => False) initial) :
    let reached := (chain runtime programId).run initial transactions
    ∃ deployment', deployment.replay (reached.2.filterMap Step.command) = some deployment' ∧
      deployment'.On runtime programId known (fun _ => False) reached.1 := by
  apply Reactive.Machine.run_replayed _ Step.command Deployment.apply
    (fun ledger deployment => deployment.On runtime programId known (fun _ => False) ledger) _ _ _ on
  intro ledger deployment transaction member on
  unfold chain
  split
  next ledger' done =>
    obtain ⟨deployment', deleted, replayed, on'⟩ := executeAll_replayed documented distinct foreign
      (genuine transaction member) (leaves transaction member) on
      (fun place within gone => gone.elim) done
    exact ⟨deployment', replayed, on'.purge documented⟩
  next => exact ⟨deployment, rfl, on⟩

omit documented distinct foreign in
theorem Deployment.On.of_unused (unused : Unused runtime programId known ledger) :
    Deployment.empty.On runtime programId known (fun _ => False) ledger := by
  refine ⟨fun place within _ => ?_, fun place within gone => gone.elim⟩
  have empty := unused place within
  cases place <;> exact empty

theorem chain_replayed_own {initial : Ledger} {transactions : List (List Step)}
    (genuine : ∀ transaction ∈ transactions, ∀ step ∈ transaction,
      step.Genuine runtime programId known)
    (leaves : ∀ transaction ∈ transactions, LeavesDeleted transaction)
    (unused : Unused runtime programId known initial) (owner : PublicKey) :
    let reached := (chain runtime programId).run initial transactions
    ∃ own, Deployment.empty.replay (commandsFor owner reached.2) = some own ∧
      ∀ place : Place, place.Within known → place.tableOwner = owner →
        place.Holds runtime programId (reached.1 (place.address runtime programId))
          (own.held place) := by
  intro reached
  obtain ⟨whole, replayed, on⟩ := chain_replayed documented distinct foreign genuine leaves
    (Deployment.On.of_unused unused)
  have same : Deployment.Alike (fun place => decide (place.tableOwner = owner)) .empty .empty :=
    fun _ _ => rfl
  obtain ⟨own, ownReplayed, alike⟩ := same.replay
    (fun _ _ isKept => by exact isKept) _ replayed
  refine ⟨own, ownReplayed, fun place within isOwn => ?_⟩
  rw [← alike place (decide_eq_true isOwn)]
  exact on.held place within not_false

/-- Chains that have carried out the same commands for a table, in the same order, hold the same bytes
at the table and at its seats, whatever else they have carried out, refused or paid. -/
theorem same_commands_same_data {initial initial' : Ledger}
    {transactions transactions' : List (List Step)}
    (genuine : ∀ transaction ∈ transactions, ∀ step ∈ transaction,
      step.Genuine runtime programId known)
    (genuine' : ∀ transaction ∈ transactions', ∀ step ∈ transaction,
      step.Genuine runtime programId known)
    (leaves : ∀ transaction ∈ transactions, LeavesDeleted transaction)
    (leaves' : ∀ transaction ∈ transactions', LeavesDeleted transaction)
    (unused : Unused runtime programId known initial)
    (unused' : Unused runtime programId known initial') {place : Place} (within : place.Within known) :
    let reached := (chain runtime programId).run initial transactions
    let reached' := (chain runtime programId).run initial' transactions'
    commandsFor place.tableOwner reached.2 = commandsFor place.tableOwner reached'.2 →
      (reached.1 (place.address runtime programId)).data =
        (reached'.1 (place.address runtime programId)).data := by
  intro reached reached' same
  obtain ⟨own, replayed, holds⟩ := chain_replayed_own documented distinct foreign genuine leaves
    unused place.tableOwner
  obtain ⟨own', replayed', holds'⟩ := chain_replayed_own documented distinct foreign genuine' leaves'
    unused' place.tableOwner
  obtain rfl : own = own' := Option.some.inj (replayed.symm.trans ((congrArg _ same).trans replayed'))
  exact (holds place within rfl).data_eq (holds' place within rfl)

end Steps

theorem Sample.reopened_leaves : ∀ transaction ∈ Sample.reopened, LeavesDeleted transaction := by
  simp [Sample.reopened, LeavesDeleted]

theorem same_commands_same_data_paid :
    let creation : List Step := [.call Sample.tableAccounts [0, 1]]
    let payment : List Step := [.transfer Sample.user Sample.owner 5 [Sample.user]]
    let place : Place := .table Sample.owner
    let reached := (chain Sample.runtime PROGRAM_ID).run Sample.funded [creation]
    let reached' := (chain Sample.runtime PROGRAM_ID).run Sample.funded
      [payment, creation, creation]
    commandsFor Sample.owner reached.2 = commandsFor Sample.owner reached'.2 ∧
      (reached.1 (place.address Sample.runtime PROGRAM_ID)).data =
        (reached'.1 (place.address Sample.runtime PROGRAM_ID)).data := by
  intro creation payment place reached reached'
  have genuine : ∀ transaction ∈ [payment, creation, creation], ∀ step ∈ transaction,
      step.Genuine Sample.runtime PROGRAM_ID {key | key ∈ Sample.keys} := by
    simp only [List.forall_mem_cons, List.not_mem_nil, IsEmpty.forall_iff, implies_true, and_true,
      creation, payment]
    exact ⟨trivial, Sample.table_genuine _, Sample.table_genuine _⟩
  have leaves : ∀ transaction ∈ [payment, creation, creation], LeavesDeleted transaction := by
    simp [LeavesDeleted, creation, payment]
  have within : place.Within {key | key ∈ Sample.keys} := by
    simp [place, Place.Within, Sample.keys]
  have same : commandsFor Sample.owner reached.2 = commandsFor Sample.owner reached'.2 := by
    decide +kernel
  refine ⟨same, same_commands_same_data Sample.runtime_documented Sample.distinct (by decide) ?_
    genuine ?_ leaves Sample.unused Sample.unused within same⟩
  · exact fun transaction member => genuine transaction (by simp_all)
  · exact fun transaction member => leaves transaction (by simp_all)

end RoundTable.Contract
