import RoundTable.Client.Contract
import RoundTable.Contract.Acceptance
import RoundTable.Shared.KeyText
import RoundTable.Shared.Script

set_option autoImplicit false

namespace RoundTable.Client.CommandLine

open Contract Script

inductive ArgumentType where
  | publicKey
  | boolean
  | string
deriving DecidableEq

def ArgumentType.name : ArgumentType → String
  | .publicKey => "PublicKey"
  | .boolean => "Boolean"
  | .string => "String"

inductive Argument where
  | publicKey (key : PublicKey)
  | boolean (value : Bool)
  | string (text : String)

/-- What the tool uses of web3.js: the key that a text stands for, and the accounts and the data
with which an instruction reaches the program, where the fee payer alone signs its transaction. -/
structure Web3 where
  newPublicKey : String → Option PublicKey
  sendAndConfirmTransaction : PublicKey → TransactionInstruction →
    Option (List AccountInfo × List UInt8)

/-- A transaction is not sent while a signature is missing. It lists the accounts of its instruction
with the rights of all their mentions, and its fee payer signs it. -/
structure Delivered (feePayer : PublicKey) (ix : TransactionInstruction)
    (accounts : List AccountInfo) (data : List UInt8) : Prop where
  signed : ∀ account ∈ ix.keys, account.isSigner = true → account.key = feePayer
  isData : data = ix.data
  keys : accounts.map AccountInfo.key = ix.keys.map AccountInfo.key
  signer : ∀ account ∈ accounts, account.isSigner = true ↔ account.key = feePayer ∨
    ∃ mention ∈ ix.keys, mention.key = account.key ∧ mention.isSigner = true
  writable : ∀ account ∈ accounts, ∀ mention ∈ ix.keys, mention.key = account.key →
    mention.isWritable = true → account.isWritable = true

def Web3.Documented (web3 : Web3) : Prop :=
  ∀ feePayer ix accounts data, web3.sendAndConfirmTransaction feePayer ix = some (accounts, data) →
    Delivered feePayer ix accounts data

section Words

variable (web3 : Web3)

-- What `new` makes of a word, or of the `undefined` of a word that is missing. A `Boolean` is true
-- of every text but the empty one.
def ArgumentType.new : ArgumentType → Option String → Option Argument
  | .publicKey, word => (word.bind web3.newPublicKey).map .publicKey
  | .boolean, word => some (.boolean (word.any (· ≠ "")))
  | .string, word => some (.string (word.getD "undefined"))

def parseArguments (words : List String) (first : Nat) :
    List ArgumentType → Nat → Except (Nat × ArgumentType) (List Argument)
  | [], _ => .ok []
  | type :: types, place =>
    match type.new web3 words[first + place]? with
    | none => .error (place, type)
    | some argument => (parseArguments words first types (place + 1)).map (argument :: ·)

end Words

-- The message always shows the word that a get operation would have read.
def argumentError (words : List String) (failed : Nat × ArgumentType) : String :=
  "Error parsing argument " ++ toString failed.1 ++ " as type " ++ failed.2.name ++ " with value " ++
    words[1 + failed.1]?.getD "undefined"

inductive GetOperation where
  | getTableData
  | getSeatData

inductive TxOperation where
  | createTable
  | deleteTable
  | addBootstrap
  | deleteBootstrap
  | addChannel
  | deleteChannel
  | addSeat
  | deleteSeat

def getOperations : String → Option GetOperation
  | "getTableData" => some .getTableData
  | "getSeatData" => some .getSeatData
  | _ => none

def txOperations : String → Option TxOperation
  | "createTable" => some .createTable
  | "deleteTable" => some .deleteTable
  | "addBootstrap" => some .addBootstrap
  | "deleteBootstrap" => some .deleteBootstrap
  | "addChannel" => some .addChannel
  | "deleteChannel" => some .deleteChannel
  | "addSeat" => some .addSeat
  | "deleteSeat" => some .deleteSeat
  | _ => none

def GetOperation.types : GetOperation → List ArgumentType
  | .getTableData => [.publicKey]
  | .getSeatData => [.publicKey, .publicKey]

def TxOperation.types : TxOperation → List ArgumentType
  | .createTable => [.publicKey, .boolean]
  | .deleteTable => [.publicKey]
  | .addBootstrap | .deleteBootstrap | .addChannel | .deleteChannel => [.publicKey, .string]
  | .addSeat => [.publicKey, .publicKey, .publicKey]
  | .deleteSeat => [.publicKey, .publicKey]

inductive Outcome where
  | invalidCommand
  | uncaught
  | badArgument (message : String)
  | tableData (result : Except BorshError (Option TableView))
  | seatData (result : Except BorshError (Option RoundTableSeatData))
  | sent (accounts : List AccountInfo) (data : List UInt8)

def GetOperation.call (runtime : Runtime) (ledger : Ledger) :
    GetOperation → List Argument → Outcome
  | .getTableData, [.publicKey owner] => .tableData (Client.getTableData runtime ledger owner)
  | .getSeatData, [.publicKey owner, .publicKey user] =>
    .seatData (Client.getSeatData runtime ledger owner user)
  | _, _ => .uncaught

def TxOperation.call (runtime : Runtime) :
    TxOperation → List Argument → Option TransactionInstruction
  | .createTable, [.publicKey user, .boolean closed] => some (makeInitTableIx runtime user closed)
  -- the second argument is `undefined`
  | .deleteTable, [.publicKey user] => some (makeDeleteTableIx runtime user false)
  | .addBootstrap, [.publicKey user, .string name] => makeAddBoostrapIx runtime user name.toList
  | .deleteBootstrap, [.publicKey user, .string name] =>
    makeDeleteBoostrapIx runtime user name.toList
  | .addChannel, [.publicKey user, .string name] => makeAddChannelIx runtime user name.toList
  | .deleteChannel, [.publicKey user, .string name] => makeDeleteChannelIx runtime user name.toList
  | .addSeat, [.publicKey user, .publicKey tableOwner, .publicKey channelPubkey] =>
    some (makeAddSeatIx runtime user tableOwner channelPubkey)
  | .deleteSeat, [.publicKey user, .publicKey tableOwner] =>
    some (makeRemoveSeatIx runtime user tableOwner)
  | _, _ => none

section Run

variable (web3 : Web3) (keyPairFromFile : Option String → Option PublicKey) (runtime : Runtime)
  (ledger : Ledger)

def query (words : List String) (operation : GetOperation) : Outcome :=
  match parseArguments web3 words 1 operation.types 0 with
  | .error failed => .badArgument (argumentError words failed)
  | .ok arguments => operation.call runtime ledger arguments

def transact (words : List String) (operation : TxOperation) : Outcome :=
  match keyPairFromFile words[1]? with
  | none => .uncaught
  | some id =>
    match parseArguments web3 words 2 operation.types 0 with
    | .error failed => .badArgument (argumentError words failed)
    | .ok arguments =>
      match (operation.call runtime arguments).bind (web3.sendAndConfirmTransaction id) with
      | none => .uncaught
      | some sent => .sent sent.1 sent.2

def run (words : List String) : Outcome :=
  let name := words.head?.getD "undefined"
  match getOperations name with
  | some operation => query web3 runtime ledger words operation
  | none =>
    -- what every object inherits is taken for an operation without types
    if (Realm.pristine.inherited name).isSome then .uncaught
    else
      match txOperations name with
      | some operation => transact web3 keyPairFromFile runtime words operation
      | none => .invalidCommand

end Run

section Asked

variable (web3 : Web3) (id : PublicKey) (words : List String)

def nameCommand (instruction : Bytes 128 → RoundNetInstruction) : Option Command :=
  let name := (words[3]?.getD "undefined").toList
  if short : (Utf8.encode name).length ≤ 128 then
    some (.edit id (instruction (padded name short)))
  else none

-- What the words ask for in the name of `id`. A table is closed by any text that is not empty, and
-- `id` approves only of seats at its own table.
def TxOperation.asks : TxOperation → Option Command
  | .createTable => some (.create id (words[3]?.any (· ≠ "")))
  | .deleteTable => some (.delete id)
  | .addBootstrap => nameCommand id words .AddBootstrap
  | .deleteBootstrap => nameCommand id words .RemoveBootstrap
  | .addChannel => nameCommand id words .AddChannelArgs
  | .deleteChannel => nameCommand id words .RemoveChannelArgs
  | .addSeat => do
    let tableOwner ← words[3]?.bind web3.newPublicKey
    let channelPubkey ← words[4]?.bind web3.newPublicKey
    return .sit tableOwner id (tableOwner = id) ⟨channelPubkey⟩
  | .deleteSeat => do
    let tableOwner ← words[3]?.bind web3.newPublicKey
    return .leave tableOwner id (tableOwner = id)

def asked : Option Command := do
  let operation ← txOperations (words.head?.getD "undefined")
  operation.asks web3 id words

end Asked

inductive Aims (runtime : Runtime) (id : PublicKey) (command : Command) :
    List AccountInfo → List UInt8 → Prop where
  | intro {user program first account : AccountInfo} {others : List AccountInfo}
      {instruction : RoundNetInstruction} (isUser : user.key = id)
      (isProgram : program.key = PROGRAM_ID)
      (addressed : Addressed runtime user program others first account instruction)
      (isCommand : instruction.command user first = command) :
      Aims runtime id command (user :: program :: others) instruction.serialize

section Sending

variable {runtime : Runtime} {id user tableOwner : PublicKey} {ix : TransactionInstruction}
  {accounts : List AccountInfo} {data : List UInt8} {command : Command}
  (delivered : Delivered id ix accounts data)

include delivered

theorem Delivered.isSigner_iff {account : AccountInfo} (member : account ∈ accounts) :
    account.isSigner = true ↔ account.key = id := by
  rw [delivered.signer account member]
  constructor
  · rintro (isPayer | ⟨mention, inside, same, isSigner⟩)
    · exact isPayer
    · exact same.symm.trans (delivered.signed mention inside isSigner)
  · exact .inl

theorem Delivered.aims_at_table (instruction : RoundNetInstruction)
    (keys : ix.keys = tableKeys runtime user) (isData : ix.data = instruction.serialize)
    (isTable : instruction.slot = 2)
    (isCommand : ∀ signer first : AccountInfo, signer.key = user →
      instruction.command signer first = command) :
    user = id ∧ Aims runtime id command accounts data := by
  have listed := delivered.keys
  simp only [keys, tableKeys, List.map_cons, List.map_nil, List.map_eq_cons_iff,
    List.map_eq_nil_iff] at listed
  obtain ⟨signer, _, rfl, isUser, program, _, rfl, isProgram, table, _, rfl, address, system, _, rfl,
    -, rfl⟩ := listed
  have isId : user = id := delivered.signed ⟨user, true, true⟩ (by simp [keys, tableKeys]) rfl
  have place : (instruction.command signer table).place = .table signer.key := by
    cases instruction <;> first | rfl | cases isTable
  refine ⟨isId, ?_⟩
  rw [delivered.isData, isData]
  refine .intro (isUser.trans isId) isProgram
    ⟨?_, ?_, ?_, rfl, by rw [isTable]; rfl, ?_, by simp [isTable]⟩ (isCommand _ _ isUser)
  · exact (delivered.isSigner_iff (by simp)).mpr (isUser.trans isId)
  · exact delivered.writable signer (by simp) ⟨user, true, true⟩ (by simp [keys, tableKeys])
      isUser.symm rfl
  · exact delivered.writable table (by simp) ⟨_, false, true⟩ (by simp [keys, tableKeys])
      address.symm rfl
  · rw [place, isUser, isProgram]
    exact address

theorem Delivered.aims_at_seat (instruction : RoundNetInstruction)
    (keys : ix.keys = seatKeys runtime user tableOwner) (isData : ix.data = instruction.serialize)
    (isSeat : instruction.slot = 4)
    (isCommand : ∀ signer first : AccountInfo, signer.key = user → first.key = tableOwner →
      first.isSigner = decide (tableOwner = user) → instruction.command signer first = command) :
    user = id ∧ Aims runtime id command accounts data := by
  have listed := delivered.keys
  simp only [keys, seatKeys, List.map_cons, List.map_nil, List.map_eq_cons_iff,
    List.map_eq_nil_iff] at listed
  obtain ⟨signer, _, rfl, isUser, program, _, rfl, isProgram, owner, _, rfl, isOwner, table, _, rfl,
    tableKey, seat, _, rfl, address, system, _, rfl, -, rfl⟩ := listed
  have isId : user = id := delivered.signed ⟨user, true, true⟩ (by simp [keys, seatKeys]) rfl
  have place : (instruction.command signer owner).place = .seat owner.key signer.key := by
    cases instruction <;> first | rfl | cases isSeat
  have approves : owner.isSigner = decide (tableOwner = user) := by
    rw [Bool.eq_iff_iff, delivered.isSigner_iff (by simp), isOwner, isId, decide_eq_true_eq]
  refine ⟨isId, ?_⟩
  rw [delivered.isData, isData]
  refine .intro (isUser.trans isId) isProgram
    ⟨?_, ?_, ?_, rfl, by rw [isSeat]; rfl, ?_, fun _ => ⟨table, rfl, ?_⟩⟩
    (isCommand _ _ isUser isOwner approves)
  · exact (delivered.isSigner_iff (by simp)).mpr (isUser.trans isId)
  · exact delivered.writable signer (by simp) ⟨user, true, true⟩ (by simp [keys, seatKeys])
      isUser.symm rfl
  · exact delivered.writable seat (by simp) ⟨_, false, true⟩ (by simp [keys, seatKeys])
      address.symm rfl
  · rw [place, isUser, isProgram, isOwner]
    exact address
  · rw [isProgram, isOwner]
    exact tableKey

end Sending

section Runs

variable {runtime : Runtime} {words : List String} {first place : Nat} {types : List ArgumentType}
  {arguments : List Argument} {id user : PublicKey} {accounts : List AccountInfo}
  {data : List UInt8} {ix : TransactionInstruction} {web3 : Web3}

theorem new_publicKey {word : Option String} {argument : Argument} :
    ArgumentType.publicKey.new web3 word = some argument ↔
      ∃ key, word.bind web3.newPublicKey = some key ∧ argument = .publicKey key := by
  simp only [ArgumentType.new, Option.map_eq_some_iff, eq_comm]

theorem new_boolean {word : Option String} {argument : Argument} :
    ArgumentType.boolean.new web3 word = some argument ↔
      argument = .boolean (word.any (· ≠ "")) := by
  simp only [ArgumentType.new, Option.some.injEq, eq_comm]

theorem new_string {word : Option String} {argument : Argument} :
    ArgumentType.string.new web3 word = some argument ↔
      argument = .string (word.getD "undefined") := by
  simp only [ArgumentType.new, Option.some.injEq, eq_comm]

theorem parseArguments_nil :
    parseArguments web3 words first [] place = .ok arguments ↔ arguments = [] := by
  simp [parseArguments, eq_comm]

theorem parseArguments_cons {type : ArgumentType} :
    parseArguments web3 words first (type :: types) place = .ok arguments ↔
      ∃ argument rest, type.new web3 words[first + place]? = some argument ∧
        parseArguments web3 words first types (place + 1) = .ok rest ∧
          arguments = argument :: rest := by
  rw [parseArguments]
  cases made : type.new web3 words[first + place]? with
  | none => simp
  | some argument =>
    cases later : parseArguments web3 words first types (place + 1) with
    | error => simp [Except.map]
    | ok rest => simp [Except.map, eq_comm]

theorem nameOperation_sent {operation : TxOperation} (tag : RoundTableInstructions)
    (instruction : Bytes 128 → RoundNetInstruction)
    (types : operation.types = [.publicKey, .string])
    (calls : ∀ user name, operation.call runtime [.publicKey user, .string name] =
      makeNameIx runtime tag user name.toList)
    (isTable : ∀ name, (instruction name).slot = 2)
    (isCommand : ∀ name signer first, (instruction name).command signer first =
      .edit signer.key (instruction name))
    (format : ∀ name : Bytes 128, tag.tag :: name.toList = (instruction name).serialize)
    (parsed : parseArguments web3 words 2 operation.types 0 = .ok arguments)
    (called : operation.call runtime arguments = some ix)
    (delivered : Delivered id ix accounts data) :
    words[2]?.bind web3.newPublicKey = some id ∧
      ∃ command, nameCommand id words instruction = some command ∧
        Aims runtime id command accounts data := by
  rw [types] at parsed
  simp only [parseArguments_cons, parseArguments_nil, new_publicKey, new_string] at parsed
  obtain ⟨_, _, ⟨user, named, rfl⟩, ⟨_, _, rfl, rfl, rfl⟩, rfl⟩ := parsed
  simp only [calls, makeNameIx, argBuffer] at called
  split at called
  next short =>
    obtain rfl := Option.some.inj called
    have isEdit (signer first : AccountInfo) (same : signer.key = user) :=
      (isCommand (padded _ short) signer first).trans (congrArg (Command.edit · _) same)
    obtain ⟨rfl, aims⟩ := delivered.aims_at_table _ rfl (format (padded _ short))
      (isTable _) isEdit
    exact ⟨named, _, dif_pos short, aims⟩
  next => cases called

theorem TxOperation.sent {operation : TxOperation}
    (parsed : parseArguments web3 words 2 operation.types 0 = .ok arguments)
    (called : operation.call runtime arguments = some ix)
    (delivered : Delivered id ix accounts data) :
    words[2]?.bind web3.newPublicKey = some id ∧
      ∃ command, operation.asks web3 id words = some command ∧
        Aims runtime id command accounts data := by
  cases operation with
  | createTable =>
    simp only [types, parseArguments_cons, parseArguments_nil, new_publicKey, new_boolean] at parsed
    obtain ⟨_, _, ⟨user, named, rfl⟩, ⟨_, _, rfl, rfl, rfl⟩, rfl⟩ := parsed
    obtain rfl := Option.some.inj called
    obtain ⟨rfl, aims⟩ := delivered.aims_at_table (.InitTable (words[3]?.any (· ≠ ""))) rfl rfl rfl
      (fun signer first same => congrArg (Command.create · _) same)
    exact ⟨named, _, rfl, aims⟩
  | deleteTable =>
    simp only [types, parseArguments_cons, parseArguments_nil, new_publicKey] at parsed
    obtain ⟨_, _, ⟨user, named, rfl⟩, rfl, rfl⟩ := parsed
    obtain rfl := Option.some.inj called
    obtain ⟨rfl, aims⟩ := delivered.aims_at_table .DeleteTable rfl rfl rfl
      (fun signer first same => congrArg Command.delete same)
    exact ⟨named, _, rfl, aims⟩
  | addBootstrap =>
    exact nameOperation_sent .AddBoostrap .AddBootstrap rfl (fun _ _ => rfl) (fun _ => rfl)
      (fun _ _ _ => rfl) (fun _ => rfl) parsed called delivered
  | deleteBootstrap =>
    exact nameOperation_sent .DeleteBootstrap .RemoveBootstrap rfl (fun _ _ => rfl) (fun _ => rfl)
      (fun _ _ _ => rfl) (fun _ => rfl) parsed called delivered
  | addChannel =>
    exact nameOperation_sent .AddChannel .AddChannelArgs rfl (fun _ _ => rfl) (fun _ => rfl)
      (fun _ _ _ => rfl) (fun _ => rfl) parsed called delivered
  | deleteChannel =>
    exact nameOperation_sent .DeleteChannel .RemoveChannelArgs rfl (fun _ _ => rfl) (fun _ => rfl)
      (fun _ _ _ => rfl) (fun _ => rfl) parsed called delivered
  | addSeat =>
    simp only [types, parseArguments_cons, parseArguments_nil, new_publicKey] at parsed
    obtain ⟨_, _, ⟨user, named, rfl⟩, ⟨_, _, ⟨tableOwner, isOwner, rfl⟩,
      ⟨_, _, ⟨channelPubkey, isChannel, rfl⟩, rfl, rfl⟩, rfl⟩, rfl⟩ := parsed
    obtain rfl := Option.some.inj called
    have isCommand (signer first : AccountInfo) (isUser : signer.key = user)
        (isFirst : first.key = tableOwner) (signs : first.isSigner = decide (tableOwner = user)) :
        (RoundNetInstruction.AddSeat channelPubkey).command signer first =
          .sit tableOwner user (tableOwner = user) ⟨channelPubkey⟩ := by
      rw [RoundNetInstruction.command, isUser, isFirst, signs]
    obtain ⟨rfl, aims⟩ := delivered.aims_at_seat _ rfl rfl rfl isCommand
    refine ⟨named, _, ?_, aims⟩
    simp only [asks, isOwner, isChannel]
    rfl
  | deleteSeat =>
    simp only [types, parseArguments_cons, parseArguments_nil, new_publicKey] at parsed
    obtain ⟨_, _, ⟨user, named, rfl⟩, ⟨_, _, ⟨tableOwner, isOwner, rfl⟩, rfl, rfl⟩, rfl⟩ := parsed
    obtain rfl := Option.some.inj called
    have isCommand (signer first : AccountInfo) (isUser : signer.key = user)
        (isFirst : first.key = tableOwner) (signs : first.isSigner = decide (tableOwner = user)) :
        RoundNetInstruction.RemoveSeat.command signer first =
          .leave tableOwner user (tableOwner = user) := by
      rw [RoundNetInstruction.command, isUser, isFirst, signs]
    obtain ⟨rfl, aims⟩ := delivered.aims_at_seat _ rfl rfl rfl isCommand
    refine ⟨named, _, ?_, aims⟩
    simp only [asks, isOwner]
    rfl

section Run

variable {keyPairFromFile : Option String → Option PublicKey} {ledger : Ledger}

theorem run_sent (web : web3.Documented)
    (sent : run web3 keyPairFromFile runtime ledger words = .sent accounts data) :
    ∃ id command, keyPairFromFile words[1]? = some id ∧
      words[2]?.bind web3.newPublicKey = some id ∧ asked web3 id words = some command ∧
        Aims runtime id command accounts data := by
  simp only [run] at sent
  split at sent
  next operation =>
    unfold query GetOperation.call at sent
    split at sent
    · cases sent
    · split at sent <;> cases sent
  next =>
    split_ifs at sent
    split at sent
    next operation isTx =>
      unfold transact at sent
      split at sent
      · cases sent
      next id isKey =>
        split at sent
        · cases sent
        next arguments parsed =>
          split at sent
          · cases sent
          next isSent =>
            obtain ⟨rfl, rfl⟩ := Outcome.sent.inj sent
            obtain ⟨ix, called, sending⟩ := Option.bind_eq_some_iff.mp isSent
            obtain ⟨named, command, asks, aims⟩ :=
              TxOperation.sent parsed called (web id ix _ _ sending)
            exact ⟨id, command, isKey, named, by simp [asked, isTx, asks], aims⟩
    next => cases sent

variable {known : Set PublicKey}

/-- At every point of a chain in which no transaction mentions an account after it has deleted it, a
transaction that the tool sends ends as the deployment that the history has led to answers what the
words ask for in the name of the key in the file, as long as this is the key of a wallet. -/
theorem asked_is_answered (web : web3.Documented) (documented : runtime.Documented)
    (serves : runtime.Serves) (distinct : runtime.Distinct PROGRAM_ID known) {initial : Ledger}
    {transactions : List (List Step)}
    (genuine : ∀ transaction ∈ transactions, ∀ step ∈ transaction,
      step.Genuine runtime PROGRAM_ID known)
    (leaves : ∀ transaction ∈ transactions, LeavesDeleted transaction)
    (unused : Unused runtime PROGRAM_ID known initial)
    (unclaimed : ∀ place : Place, place.Within known →
      (initial (place.address runtime PROGRAM_ID)).owner = systemProgramId)
    (isGenuine : (Step.call accounts data).Genuine runtime PROGRAM_ID known) :
    let reached := (chain runtime PROGRAM_ID).run initial transactions
    run web3 keyPairFromFile runtime reached.1 words = .sent accounts data →
    ∃ deployment id command,
      Deployment.empty.replay (reached.2.filterMap Step.command) = some deployment ∧
      keyPairFromFile words[1]? = some id ∧ words[2]?.bind web3.newPublicKey = some id ∧
      asked web3 id words = some command ∧
      ((reached.1 id).owner = systemProgramId → (reached.1 id).data = [] →
        EndsAs runtime PROGRAM_ID accounts data reached.1 id command deployment) := by
  intro reached sent
  obtain ⟨deployment, replayed, on⟩ : ∃ deployment,
      Deployment.empty.replay (reached.2.filterMap Step.command) = some deployment ∧
        deployment.On runtime PROGRAM_ID known (fun _ => False) reached.1 :=
    chain_replayed documented distinct (by decide) genuine leaves (Deployment.On.of_unused unused)
  obtain ⟨id, command, isKey, named, isAsked, aims⟩ := run_sent web sent
  refine ⟨deployment, id, command, replayed, isKey, named, isAsked, fun walletOwner walletData => ?_⟩
  have stillUnclaimed : ∀ place : Place, place.Within known →
      (reached.1 (place.address runtime PROGRAM_ID)).data = [] →
        (reached.1 (place.address runtime PROGRAM_ID)).owner = systemProgramId :=
    fun _ within => chain_unclaimed documented distinct genuine unused unclaimed within
  clear_value reached
  cases aims with
  | intro isUser isProgram addressed isCommand =>
    subst isUser isCommand
    rw [← isProgram] at on isGenuine stillUnclaimed ⊢
    exact on.answers documented serves (by rw [isProgram]; decide) stillUnclaimed addressed isGenuine
      walletOwner walletData

end Run

end Runs

def Sample.compiled (feePayer : PublicKey) (keys : List AccountInfo) : List AccountInfo :=
  keys.map fun account =>
    let mentions := keys.filter (·.key = account.key)
    { account with
      isSigner := mentions.any (·.isSigner) || account.key = feePayer
      isWritable := mentions.any (·.isWritable) || account.key = feePayer }

def Sample.web3 : Web3 where
  newPublicKey := PublicKey.ofString
  sendAndConfirmTransaction feePayer ix :=
    if ∀ account ∈ ix.keys, account.isSigner = true → account.key = feePayer then
      some (Sample.compiled feePayer ix.keys, ix.data)
    else none

theorem Sample.web3_documented : Sample.web3.Documented := by
  intro feePayer ix accounts data sent
  simp only [Sample.web3, Option.ite_none_right_eq_some, Option.some.injEq, Prod.mk.injEq] at sent
  obtain ⟨signed, rfl, rfl⟩ := sent
  refine ⟨signed, rfl, by simp [Sample.compiled, Function.comp_def], ?_, ?_⟩
  · simp only [Sample.compiled, List.forall_mem_map, Bool.or_eq_true, List.any_eq_true,
      List.mem_filter, decide_eq_true_eq, and_assoc]
    exact fun _ _ => or_comm
  · simp only [Sample.compiled, List.forall_mem_map, Bool.or_eq_true, List.any_eq_true,
      List.mem_filter, decide_eq_true_eq]
    exact fun _ _ mention member same isWritable => .inl ⟨mention, ⟨member, same⟩, isWritable⟩

theorem asked_is_answered_false :
    let words := ["createTable", "id.json", Sample.owner.toString, "false"]
    let reached := (chain Sample.runtime PROGRAM_ID).run Sample.funded []
    ∃ deployment id command,
      Deployment.empty.replay (reached.2.filterMap Step.command) = some deployment ∧
      some Sample.owner = some id ∧ words[2]?.bind Sample.web3.newPublicKey = some id ∧
      asked Sample.web3 id words = some command ∧
      ((reached.1 id).owner = systemProgramId → (reached.1 id).data = [] →
        EndsAs Sample.runtime PROGRAM_ID Sample.tableAccounts [0, 1] reached.1 id command
          deployment) := by
  intro words reached
  have named : ArgumentType.publicKey.new Sample.web3 words[2]? =
      some (.publicKey Sample.owner) := by
    simp [words, ArgumentType.new, Sample.web3]
  have sent : run Sample.web3 (fun _ => some Sample.owner) Sample.runtime reached.1 words =
      .sent Sample.tableAccounts [0, 1] := by
    have parsed : parseArguments Sample.web3 words 2 TxOperation.createTable.types 0 =
        .ok [.publicKey Sample.owner, .boolean true] := by
      simp only [TxOperation.types, parseArguments, named]
      rfl
    have isTransaction : run Sample.web3 (fun _ => some Sample.owner) Sample.runtime reached.1 words =
        transact Sample.web3 (fun _ => some Sample.owner) Sample.runtime words .createTable := by
      simp [run, words, getOperations, txOperations, Realm.inherited, builtinNames, Realm.pristine]
    have sending : Sample.web3.sendAndConfirmTransaction Sample.owner
        (makeInitTableIx Sample.runtime Sample.owner true) = some (Sample.tableAccounts, [0, 1]) := by
      decide +kernel
    rw [isTransaction]
    simp only [transact, parsed, TxOperation.call, Option.bind_some, sending]
  have genuine : ∀ transaction ∈ ([] : List (List Step)), ∀ step ∈ transaction,
      step.Genuine Sample.runtime PROGRAM_ID {key | key ∈ Sample.keys} := by
    simp
  have unclaimed : ∀ place : Place, place.Within {key | key ∈ Sample.keys} →
      (Sample.funded (place.address Sample.runtime PROGRAM_ID)).owner = systemProgramId := by
    intro place _
    rw [Sample.funded]
    split_ifs <;> rfl
  exact asked_is_answered Sample.web3_documented Sample.runtime_documented Sample.runtime_serves
    Sample.distinct genuine (by simp) Sample.unused unclaimed (Sample.table_genuine _) sent

end RoundTable.Client.CommandLine
