import RoundTable.Contract.Edits

set_option autoImplicit false

namespace RoundTable.Client

open Contract

def getTableAddress (runtime : Runtime) (owner programId : PublicKey) : PublicKey × UInt8 :=
  runtime.findProgramAddress [owner.bytes] programId

def getSeatAddress (runtime : Runtime) (table user programId : PublicKey) : PublicKey × UInt8 :=
  runtime.findProgramAddress [table.bytes, user.bytes] programId

inductive BorshError where
  | bounds
deriving DecidableEq

-- A schema reader ignores what follows the last field.
def readFixed (length : Nat) (data : List UInt8) : Except BorshError (List UInt8 × List UInt8) :=
  if data.length < length then .error .bounds else .ok (data.take length, data.drop length)

def readU8 : List UInt8 → Except BorshError (UInt8 × List UInt8)
  | [] => .error .bounds
  | b :: rest => .ok (b, rest)

structure RoundTableTableData where
  servers : List UInt8
  channels : List UInt8
  closed : UInt8
deriving DecidableEq

def tableDeserialize (data : List UInt8) : Except BorshError RoundTableTableData := do
  let (servers, data) ← readFixed 512 data
  let (channels, data) ← readFixed 512 data
  let (closed, _) ← readU8 data
  return ⟨servers, channels, closed⟩

def getAccountInfo (ledger : Ledger) (key : PublicKey) : Option (List UInt8) :=
  if (ledger key).lamports = 0 then none else some (ledger key).data

structure TableView where
  servers : List (List Char)
  channels : List (List Char)
  closed : UInt8
deriving DecidableEq

-- The pieces between the semicolons without the first one, NULs left out.
def entries (bytes : List UInt8) : List (List Char) :=
  (((Utf8.textDecode bytes).filter (· ≠ Utf8.nul)).splitOn ';').drop 1

def getTableData (runtime : Runtime) (ledger : Ledger) (owner : PublicKey) :
    Except BorshError (Option TableView) :=
  let pda := getTableAddress runtime owner PROGRAM_ID
  match getAccountInfo ledger pda.1 with
  | none => .ok none
  | some data => do
    let rawTable ← tableDeserialize data
    return some ⟨entries rawTable.servers, entries rawTable.channels, rawTable.closed⟩

section Reading

variable {runtime : Runtime} {ledger : Ledger} {owner : PublicKey}

theorem getTableData_of_serialize {table : TableData}
    (data : (ledger (tableAddress runtime PROGRAM_ID owner)).data = table.serialize)
    (funded : 0 < (ledger (tableAddress runtime PROGRAM_ID owner)).lamports) :
    getTableData runtime ledger owner = .ok (some
      ⟨entries table.servers.toList, entries table.channels.toList, Borsh.ofBool table.closed⟩) := by
  have info : getAccountInfo ledger (getTableAddress runtime owner PROGRAM_ID).1 =
      some table.serialize := by
    rw [getAccountInfo, ← data]
    exact if_neg funded.ne'
  have read : tableDeserialize table.serialize =
      .ok ⟨table.servers.toList, table.channels.toList, Borsh.ofBool table.closed⟩ := by
    have servers := table.servers.length_eq
    have channels := table.channels.length_eq
    simp [tableDeserialize, readFixed, readU8, TableData.serialize, servers, channels]
  simp [getTableData, info, read]

theorem getTableData_of_empty (empty : (ledger (tableAddress runtime PROGRAM_ID owner)).data = [])
    (view : TableView) : getTableData runtime ledger owner ≠ .ok (some view) := by
  by_cases poor : (ledger (tableAddress runtime PROGRAM_ID owner)).lamports = 0
  · have info : getAccountInfo ledger (getTableAddress runtime owner PROGRAM_ID).1 = none :=
      if_pos poor
    simp [getTableData, info]
  · have info : getAccountInfo ledger (getTableAddress runtime owner PROGRAM_ID).1 = some [] := by
      rw [← empty]
      exact if_neg poor
    have read : tableDeserialize [] = .error .bounds := rfl
    simp [getTableData, info, read]

end Reading

structure RoundTableSeatData where
  channelPubkey : List UInt8
deriving DecidableEq

def seatDeserialize (data : List UInt8) : Except BorshError RoundTableSeatData := do
  let (channelPubkey, _) ← readFixed 32 data
  return ⟨channelPubkey⟩

def getSeatData (runtime : Runtime) (ledger : Ledger) (owner user : PublicKey) :
    Except BorshError (Option RoundTableSeatData) :=
  let table := (getTableAddress runtime owner PROGRAM_ID).1
  let pda := getSeatAddress runtime table user PROGRAM_ID
  match getAccountInfo ledger pda.1 with
  | none => .ok none
  | some data => do return some (← seatDeserialize data)

inductive RoundTableInstructions where
  | InitTable
  | DeleteTable
  | AddBoostrap
  | DeleteBootstrap
  | AddChannel
  | DeleteChannel
  | AddSeat
  | DeleteSeat
deriving DecidableEq

def RoundTableInstructions.tag : RoundTableInstructions → UInt8
  | .InitTable => 0
  | .DeleteTable => 1
  | .AddBoostrap => 2
  | .DeleteBootstrap => 3
  | .AddChannel => 4
  | .DeleteChannel => 5
  | .AddSeat => 6
  | .DeleteSeat => 7

structure TransactionInstruction where
  data : List UInt8
  keys : List AccountInfo
  programId : PublicKey

-- `argBuffer.set(..)` on a new array of 128 bytes, which throws when the text is longer.
def argBuffer (text : List Char) : Option (List UInt8) :=
  let bytes := Utf8.encode text
  if bytes.length ≤ 128 then some (bytes ++ List.replicate (128 - bytes.length) 0) else none

section Builders

variable (runtime : Runtime)

def tableKeys (user : PublicKey) : List AccountInfo :=
  let tablePda := (getTableAddress runtime user PROGRAM_ID).1
  [⟨user, true, true⟩, ⟨PROGRAM_ID, false, false⟩, ⟨tablePda, false, true⟩,
    ⟨systemProgramId, false, false⟩]

def seatKeys (user tableOwner : PublicKey) : List AccountInfo :=
  let tablePda := (getTableAddress runtime tableOwner PROGRAM_ID).1
  let seatPda := (getSeatAddress runtime tablePda user PROGRAM_ID).1
  [⟨user, true, true⟩, ⟨PROGRAM_ID, false, false⟩, ⟨tableOwner, false, false⟩,
    ⟨tablePda, false, false⟩, ⟨seatPda, false, true⟩, ⟨systemProgramId, false, false⟩]

def makeInitTableIx (user : PublicKey) (closed : Bool) : TransactionInstruction where
  data := [RoundTableInstructions.InitTable.tag, if closed then 1 else 0]
  keys := tableKeys runtime user
  programId := PROGRAM_ID

def makeDeleteTableIx (user : PublicKey) (_closed : Bool) : TransactionInstruction where
  data := [RoundTableInstructions.DeleteTable.tag]
  keys := tableKeys runtime user
  programId := PROGRAM_ID

def makeNameIx (instruction : RoundTableInstructions) (user : PublicKey) (name : List Char) :
    Option TransactionInstruction := do
  let buffer ← argBuffer name
  return ⟨instruction.tag :: buffer, tableKeys runtime user, PROGRAM_ID⟩

def makeAddBoostrapIx (user : PublicKey) (bootstrap : List Char) : Option TransactionInstruction :=
  makeNameIx runtime .AddBoostrap user bootstrap

def makeDeleteBoostrapIx (user : PublicKey) (bootstrap : List Char) :
    Option TransactionInstruction :=
  makeNameIx runtime .DeleteBootstrap user bootstrap

def makeAddChannelIx (user : PublicKey) (channel : List Char) : Option TransactionInstruction :=
  makeNameIx runtime .AddChannel user channel

def makeDeleteChannelIx (user : PublicKey) (channel : List Char) : Option TransactionInstruction :=
  makeNameIx runtime .DeleteChannel user channel

def makeAddSeatIx (user tableOwner channelPubkey : PublicKey) : TransactionInstruction where
  data := RoundTableInstructions.AddSeat.tag :: channelPubkey.bytes
  keys := seatKeys runtime user tableOwner
  programId := PROGRAM_ID

def makeRemoveSeatIx (user tableOwner : PublicKey) : TransactionInstruction where
  data := [RoundTableInstructions.DeleteSeat.tag]
  keys := seatKeys runtime user tableOwner
  programId := PROGRAM_ID

end Builders

end RoundTable.Client
