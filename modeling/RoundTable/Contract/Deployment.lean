import RoundTable.Contract.Creation

set_option autoImplicit false

/-!
# What the program is for

A deployment is the tables and the seats that exist. It knows nothing of accounts, lamports or
addresses. A command either is refused or changes the deployment at one place.
-/

namespace RoundTable.Contract

theorem SeatData.serialize_ne_nil (seat : SeatData) : seat.serialize ≠ [] :=
  List.ne_nil_of_length_pos (by rw [length_serialize, SEAT_DATA_SIZE]; omega)

def Place.tableOwner : Place → PublicKey
  | .table owner | .seat owner _ => owner

@[ext]
structure Deployment where
  table : PublicKey → Option TableData
  seat : PublicKey → PublicKey → Option SeatData

-- `approved` says that the owner of the table has signed as well.
inductive Command where
  | create (owner : PublicKey) (closed : Bool)
  | delete (owner : PublicKey)
  | edit (owner : PublicKey) (change : RoundNetInstruction)
  | sit (owner user : PublicKey) (approved : Bool) (seat : SeatData)
  | leave (owner user : PublicKey) (approved : Bool)
deriving DecidableEq

def Command.place : Command → Place
  | .create owner _ | .delete owner | .edit owner _ => .table owner
  | .sit owner user _ _ | .leave owner user _ => .seat owner user

namespace Deployment

def empty : Deployment := ⟨fun _ => none, fun _ _ => none⟩

def setTable (deployment : Deployment) (owner : PublicKey) (table : Option TableData) : Deployment :=
  { deployment with table := Function.update deployment.table owner table }

def setSeat (deployment : Deployment) (owner user : PublicKey) (seat : Option SeatData) :
    Deployment :=
  { deployment with
    seat := Function.update deployment.seat owner
      (Function.update (deployment.seat owner) user seat) }

-- An open table admits everybody, and a closed one whom its owner approves.
def admits (deployment : Deployment) (owner : PublicKey) (approved : Bool) : Bool :=
  (deployment.table owner).any fun table => !table.closed || approved

def apply (deployment : Deployment) : Command → Option Deployment
  | .create owner closed =>
    if deployment.table owner = none then
      some (deployment.setTable owner (some (TableData.new closed)))
    else none
  | .delete owner => (deployment.table owner).map fun _ => deployment.setTable owner none
  | .edit owner change => do
    let table ← deployment.table owner
    let table' ← (table.edit change).toOption
    return deployment.setTable owner (some table')
  | .sit owner user approved seat =>
    if deployment.admits owner approved then some (deployment.setSeat owner user (some seat))
    else none
  | .leave owner user approved =>
    if deployment.admits owner approved then some (deployment.setSeat owner user none) else none

-- How the program fails on a command that is refused.
def refusal (deployment : Deployment) : Command → Option Failure
  | .create owner _ => (deployment.table owner).map fun _ => .error .Error
  | .delete owner => if deployment.table owner = none then some (.error .Error) else none
  | .edit owner change =>
    match deployment.table owner with
    | none => some (.panic .range)
    | some table =>
      match table.edit change with
      | .ok _ => none
      | .error failure => some failure
  | .sit owner _ approved _ | .leave owner _ approved =>
    if deployment.admits owner approved then none else some (.error .Error)

-- A new account has to be paid for.
def founds (deployment : Deployment) : Command → Bool
  | .create _ _ => true
  | .sit owner user _ _ => (deployment.seat owner user).isNone
  | _ => false

-- Leaving a seat that does not exist takes what others have sent to its address.
def drains (deployment : Deployment) : Command → Bool
  | .leave owner user _ => (deployment.seat owner user).isNone
  | _ => false

def answer (deployment : Deployment) (command : Command) (affords : Bool) : Except Failure Unit :=
  match deployment.refusal command with
  | some failure => .error failure
  | none => if deployment.founds command && !affords then .error (.panic .transfer) else .ok ()

def replay (deployment : Deployment) (commands : List Command) : Option Deployment :=
  commands.foldlM apply deployment

def held (deployment : Deployment) : Place → Option (List UInt8)
  | .table owner => (deployment.table owner).map TableData.serialize
  | .seat owner user => (deployment.seat owner user).map SeatData.serialize

variable {deployment deployment' other : Deployment} {command : Command} {place : Place}

@[simp] theorem held_setTable (owner : PublicKey) (table : Option TableData) :
    (deployment.setTable owner table).held (.table owner) = table.map TableData.serialize := by
  simp [held, setTable]

@[simp] theorem held_setSeat (owner user : PublicKey) (seat : Option SeatData) :
    (deployment.setSeat owner user seat).held (.seat owner user) = seat.map SeatData.serialize := by
  simp [held, setSeat]

theorem held_setTable_ne {owner : PublicKey} (elsewhere : place ≠ .table owner)
    (table : Option TableData) : (deployment.setTable owner table).held place =
      deployment.held place := by
  cases place with
  | table owner' =>
    have different : owner' ≠ owner := fun same => elsewhere (same ▸ rfl)
    simp [held, setTable, different]
  | seat owner' user' => rfl

theorem held_setSeat_ne {owner user : PublicKey} (elsewhere : place ≠ .seat owner user)
    (seat : Option SeatData) : (deployment.setSeat owner user seat).held place =
      deployment.held place := by
  cases place with
  | table owner' => rfl
  | seat owner' user' =>
    by_cases sameOwner : owner' = owner
    · subst sameOwner
      have different : user' ≠ user := fun same => elsewhere (same ▸ rfl)
      simp [held, setSeat, different]
    · simp [held, setSeat, sameOwner]

theorem founds_sit (owner user : PublicKey) (approved : Bool) (seat : SeatData) :
    deployment.founds (.sit owner user approved seat) =
      (deployment.held (.seat owner user)).isNone := by
  simp [founds, held]

theorem held_ne_nil (deployment : Deployment) {data : List UInt8}
    (held : deployment.held place = some data) : data ≠ [] := by
  cases place with
  | table owner =>
    obtain ⟨table, -, rfl⟩ := Option.map_eq_some_iff.mp held
    exact table.serialize_ne_nil
  | seat owner user =>
    obtain ⟨seat, -, rfl⟩ := Option.map_eq_some_iff.mp held
    exact seat.serialize_ne_nil

theorem apply_eq (applied : deployment.apply command = some deployment') :
    match command with
    | .create owner closed => deployment.table owner = none ∧
        deployment' = deployment.setTable owner (some (TableData.new closed))
    | .delete owner => (deployment.table owner).isSome ∧ deployment' = deployment.setTable owner none
    | .edit owner change => ∃ table table', deployment.table owner = some table ∧
        table.edit change = .ok table' ∧ deployment' = deployment.setTable owner (some table')
    | .sit owner user approved seat => deployment.admits owner approved = true ∧
        deployment' = deployment.setSeat owner user (some seat)
    | .leave owner user approved => deployment.admits owner approved = true ∧
        deployment' = deployment.setSeat owner user none := by
  cases command with
  | create owner closed =>
    simp only [apply, Option.ite_none_right_eq_some, Option.some.injEq] at applied
    exact ⟨applied.1, applied.2.symm⟩
  | delete owner =>
    simp only [apply, Option.map_eq_some_iff] at applied
    obtain ⟨table, present, rfl⟩ := applied
    exact ⟨by simp [present], rfl⟩
  | edit owner change =>
    simp only [apply, Option.bind_eq_bind, Option.bind_eq_some_iff, Option.pure_def,
      Option.some.injEq] at applied
    obtain ⟨table, present, table', edited, rfl⟩ := applied
    refine ⟨table, table', present, ?_, rfl⟩
    cases outcome : table.edit change with
    | error failure => simp [outcome, Except.toOption] at edited
    | ok edited' => simpa [outcome, Except.toOption] using edited
  | sit owner user approved seat | leave owner user approved =>
    simp only [apply, Option.ite_none_right_eq_some, Option.some.injEq] at applied
    exact ⟨applied.1, applied.2.symm⟩

theorem apply_other (applied : deployment.apply command = some deployment')
    (elsewhere : place ≠ command.place) : deployment'.held place = deployment.held place := by
  have change := apply_eq applied
  cases command with
  | create owner closed | delete owner =>
    rw [change.2, held_setTable_ne elsewhere]
  | edit owner change' =>
    obtain ⟨table, table', -, -, rfl⟩ := change
    rw [held_setTable_ne elsewhere]
  | sit owner user approved seat | leave owner user approved =>
    rw [change.2, held_setSeat_ne elsewhere]

theorem table_eq_of_held {owner : PublicKey}
    (same : other.held (.table owner) = deployment.held (.table owner)) :
    other.table owner = deployment.table owner :=
  Option.map_injective TableData.serialize_injective same

@[simp] theorem replay_nil : deployment.replay [] = some deployment := rfl

theorem replay_cons (commands : List Command) :
    deployment.replay (command :: commands) =
      (deployment.apply command).bind fun next => next.replay commands := by
  rw [replay, List.foldlM_cons]
  rfl

theorem replay_append (earlier later : List Command) :
    deployment.replay (earlier ++ later) =
      (deployment.replay earlier).bind fun next => next.replay later := by
  rw [replay, List.foldlM_append]
  rfl

section Alike

variable (kept : Place → Bool)

def Alike (deployment other : Deployment) : Prop :=
  ∀ place, kept place = true → deployment.held place = other.held place

variable {kept}

theorem Alike.setTable (alike : Alike kept deployment other) (owner : PublicKey)
    (table : Option TableData) :
    Alike kept (deployment.setTable owner table) (other.setTable owner table) := by
  intro place isKept
  by_cases here : place = .table owner
  · subst here
    simp
  · rw [held_setTable_ne here, held_setTable_ne here, alike place isKept]

theorem Alike.setSeat (alike : Alike kept deployment other) (owner user : PublicKey)
    (seat : Option SeatData) :
    Alike kept (deployment.setSeat owner user seat) (other.setSeat owner user seat) := by
  intro place isKept
  by_cases here : place = .seat owner user
  · subst here
    simp
  · rw [held_setSeat_ne here, held_setSeat_ne here, alike place isKept]

theorem Alike.apply (alike : Alike kept deployment other)
    (withTables : ∀ owner user, kept (.seat owner user) = true → kept (.table owner) = true)
    (isKept : kept command.place = true) (applied : deployment.apply command = some deployment') :
    ∃ other', other.apply command = some other' ∧ Alike kept deployment' other' := by
  have change := apply_eq applied
  cases command with
  | create owner closed =>
    obtain ⟨absent, rfl⟩ := change
    have table := table_eq_of_held (alike (.table owner) isKept)
    exact ⟨_, by simp [Deployment.apply, ← table, absent], alike.setTable owner _⟩
  | delete owner =>
    obtain ⟨present, rfl⟩ := change
    have table := table_eq_of_held (alike (.table owner) isKept)
    obtain ⟨found, isFound⟩ := Option.isSome_iff_exists.mp present
    exact ⟨_, by simp [Deployment.apply, ← table, isFound], alike.setTable owner _⟩
  | edit owner edit =>
    obtain ⟨found, edited, isFound, outcome, rfl⟩ := change
    have table := table_eq_of_held (alike (.table owner) isKept)
    exact ⟨_, by simp [Deployment.apply, ← table, isFound, outcome, Except.toOption],
      alike.setTable owner _⟩
  | sit owner user approved seat | leave owner user approved =>
    obtain ⟨admitted, rfl⟩ := change
    have table := table_eq_of_held (alike (.table owner) (withTables owner user isKept))
    have alsoAdmitted : other.admits owner approved = true := by rwa [admits, ← table]
    exact ⟨_, by simp [Deployment.apply, alsoAdmitted], alike.setSeat owner user _⟩

theorem Alike.apply_other (alike : Alike kept deployment other)
    (notKept : kept command.place = false) (applied : deployment.apply command = some deployment') :
    Alike kept deployment' other := by
  intro place isKept
  have elsewhere : place ≠ command.place := by
    rintro rfl
    simp [isKept] at notKept
  rw [Deployment.apply_other applied elsewhere, alike place isKept]

theorem Alike.replay
    (withTables : ∀ owner user, kept (.seat owner user) = true → kept (.table owner) = true)
    (commands : List Command) (alike : Alike kept deployment other)
    (replayed : deployment.replay commands = some deployment') :
    ∃ other', other.replay (commands.filter fun command => kept command.place) = some other' ∧
      Alike kept deployment' other' := by
  induction commands generalizing deployment other with
  | nil =>
    obtain rfl := Option.some.inj replayed
    exact ⟨other, rfl, alike⟩
  | cons command commands ih =>
    rw [replay_cons] at replayed
    obtain ⟨next, applied, rest⟩ := Option.bind_eq_some_iff.mp replayed
    by_cases isKept : kept command.place = true
    · obtain ⟨otherNext, otherApplied, alikeNext⟩ := alike.apply withTables isKept applied
      obtain ⟨other', otherRest, alike'⟩ := ih alikeNext rest
      refine ⟨other', ?_, alike'⟩
      rw [List.filter_cons_of_pos (by simpa using isKept), replay_cons, otherApplied]
      exact otherRest
    · have notKept : kept command.place = false := by simpa using isKept
      obtain ⟨other', otherRest, alike'⟩ := ih (alike.apply_other notKept applied) rest
      exact ⟨other', by rwa [List.filter_cons_of_neg (by simpa using notKept)], alike'⟩

end Alike

end Deployment

end RoundTable.Contract
