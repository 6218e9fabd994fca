import RoundTable.Contract.Accounts
import RoundTable.Contract.StrBuf

set_option autoImplicit false

/-!
# The program

A handler runs on the ledger and either ends with a new ledger or fails. What a failed instruction
has written is undone with its transaction, so a failure carries no ledger.
-/

namespace RoundTable.Contract

abbrev Program := Attempt Ledger Failure

structure Context where
  user : AccountInfo
  program : AccountInfo
  others : List AccountInfo

def Context.other (context : Context) (i : Nat) : Program AccountInfo :=
  match context.others[i]? with
  | some account => return account
  | none => throw (.panic .index)

def error (error : Errors) : Program Unit := throw (.error error)

section Processor

variable (runtime : Runtime)

def checkTableAccount (tableAcc : AccountInfo) (owner program : PublicKey) :
    Program (AccountInfo × List (List UInt8)) :=
  let (seed, pda) := deriveTableSeed runtime owner program
  if pda ≠ tableAcc.key then throw (.error .BadTableAccount)
  else return (tableAcc, seed)

def checkSeatAccount (seatAcc : AccountInfo) (table user program : PublicKey) :
    Program (AccountInfo × List (List UInt8)) :=
  let (seed, pda) := deriveSeatSeed runtime table user program
  if pda ≠ seatAcc.key then throw (.error .BadSeatAccount)
  else return (seatAcc, seed)

/-- The account list of a call signs for whoever has signed the instruction, and the seeds sign for
the address that they derive. -/
def invokeSigned (instruction : SystemInstruction) (accounts : List AccountInfo)
    (seeds : List (List UInt8)) (caller : PublicKey) : Program (Except Unit Unit) := do
  let signed (key : PublicKey) : Bool :=
    accounts.any (fun account => account.key = key && account.isSigner) ||
      runtime.createProgramAddress seeds caller = some key
  match runtime.system instruction signed (← get) with
  | some ledger =>
    set ledger
    return .ok ()
  | none => return .error ()

-- `invoke_signed(..).unwrap()`.
def unwrapped (call : Program (Except Unit Unit)) (panic : Panic) : Program Unit := do
  match ← call with
  | .ok () => return ()
  | .error () => throw (.panic panic)

def createOwnedFundedSizedPda (newAccount programAccount payer : AccountInfo)
    (seed : List (List UInt8)) (space : Nat) (overwrite : Bool) : Program (Except Unit Unit) := do
  let accounts := [payer, newAccount]
  if ((← get) newAccount.key).data.isEmpty || overwrite then
    -- a failed allocation is logged, and the creation goes on
    let _ ← invokeSigned runtime (.allocate newAccount.key space) accounts seed programAccount.key
    let rentFreeAmt := runtime.rentDue space
    let accountValue := ((← get) newAccount.key).lamports
    if accountValue < rentFreeAmt then
      unwrapped (invokeSigned runtime
        (.transfer payer.key newAccount.key (rentFreeAmt - accountValue)) accounts seed
          programAccount.key) .transfer
    unwrapped (invokeSigned runtime (.assign newAccount.key programAccount.key) accounts seed
      programAccount.key) .assign
    return .ok ()
  else return .error ()

def deletePda (account refund : AccountInfo) : Program Unit := do
  let accountValue := ((← get) account.key).lamports
  modify fun ledger => ledger.setLamports account.key (accountValue - accountValue)
  modify fun ledger =>
    ledger.setLamports refund.key ((ledger refund.key).lamports + accountValue)

-- `value.serialize(&mut &mut account.data.borrow_mut()[..]).unwrap()`.
def serializeInto (account : AccountInfo) (bytes : List UInt8) : Program Unit := do
  let data := ((← get) account.key).data
  if data.length < bytes.length then throw (.panic .serialize)
  modify fun ledger => ledger.setData account.key (bytes ++ data.drop bytes.length)

-- `edit(&mut account.data.borrow_mut()[start..stop])?`.
def editRegion (account : AccountInfo) (start stop : Nat)
    (edit : List UInt8 → Except Failure (List UInt8)) : Program Unit := do
  let data := ((← get) account.key).data
  if data.length < stop then throw (.panic .range)
  let region ← edit ((data.take stop).drop start)
  modify fun ledger => ledger.setData account.key (data.take start ++ region ++ data.drop stop)

def TableData.new (closed : Bool) : TableData where
  servers := ⟨List.replicate 512 0, List.length_replicate⟩
  channels := ⟨List.replicate 512 0, List.length_replicate⟩
  closed := closed

def initTable (context : Context) (closed : Bool) : Program Unit := do
  let (tableAcc, tableSeed) ←
    checkTableAccount runtime (← context.other 0) context.user.key context.program.key
  if ((← get) tableAcc.key).data.length > 0 then return ← error .Error
  let _ ← createOwnedFundedSizedPda runtime tableAcc context.program context.user tableSeed
    TABLE_DATA_SIZE false
  serializeInto tableAcc (TableData.new closed).serialize

def deleteTable (context : Context) : Program Unit := do
  let (tableAcc, _) ←
    checkTableAccount runtime (← context.other 0) context.user.key context.program.key
  if ((← get) tableAcc.key).data.length = 0 then return ← error .Error
  deletePda tableAcc context.user

def editTable (context : Context) (start stop : Nat)
    (edit : List UInt8 → Except Failure (List UInt8)) : Program Unit := do
  let (tableAcc, _) ←
    checkTableAccount runtime (← context.other 0) context.user.key context.program.key
  editRegion tableAcc start stop edit

def addBootstrap (context : Context) (bootstrap : Bytes 128) : Program Unit :=
  editTable runtime context 0 512 fun array => strBufAdd array bootstrap.toList

def removeBootstrap (context : Context) (bootstrap : Bytes 128) : Program Unit :=
  editTable runtime context 0 512 fun array => strBufRm array bootstrap.toList

def addChannel (context : Context) (channel : Bytes 128) : Program Unit :=
  editTable runtime context 512 1024 fun array => strBufAdd array channel.toList

def removeChannel (context : Context) (channel : Bytes 128) : Program Unit :=
  editTable runtime context 512 1024 fun array => strBufRm array channel.toList

def checkSeat (context : Context) : Program (AccountInfo × List (List UInt8)) := do
  let tableOwnerAcc ← context.other 0
  let (tableAcc, _) ←
    checkTableAccount runtime (← context.other 1) tableOwnerAcc.key context.program.key
  let (seatAcc, seatSeed) ←
    checkSeatAccount runtime (← context.other 2) tableAcc.key context.user.key context.program.key
  match TableData.deserialize ((← get) tableAcc.key).data with
  | none => throw (.error .Error)
  | some (tableData, _) =>
    if tableData.closed && !tableOwnerAcc.isSigner then throw (.error .Error)
    return (seatAcc, seatSeed)

def addSeat (context : Context) (channelKey : PublicKey) : Program Unit := do
  let (seatAcc, seatSeed) ← checkSeat runtime context
  let _ ← createOwnedFundedSizedPda runtime seatAcc context.program context.user seatSeed
    SEAT_DATA_SIZE false
  let newSeat : SeatData := ⟨channelKey⟩
  serializeInto seatAcc newSeat.serialize

def removeSeat (context : Context) : Program Unit := do
  let (seatAcc, _) ← checkSeat runtime context
  deletePda seatAcc context.user

def RoundNetInstruction.process (context : Context) : RoundNetInstruction → Program Unit
  | .InitTable closed => initTable runtime context closed
  | .DeleteTable => deleteTable runtime context
  | .AddBootstrap bootstrap => addBootstrap runtime context bootstrap
  | .RemoveBootstrap bootstrap => removeBootstrap runtime context bootstrap
  | .AddChannelArgs channel => addChannel runtime context channel
  | .RemoveChannelArgs channel => removeChannel runtime context channel
  | .AddSeat channelKey => addSeat runtime context channelKey
  | .RemoveSeat => removeSeat runtime context

def processInstruction (programId : PublicKey) (accounts : List AccountInfo)
    (input : List UInt8) : Program Unit := do
  match accounts with
  | user :: program :: others =>
    if !user.isSigner then throw (.error .Account0MustBeSigner)
    if program.key ≠ programId then throw (.error .Account1MustBeProgramID)
    match Borsh.tryFromSlice RoundNetInstruction.deserialize input with
    | none => throw (.error .FailedToDeserialiseInstruction)
    | some instruction => instruction.process runtime ⟨user, program, others⟩
  | _ => throw (.error .MissingBaseAccounts)

end Processor

end RoundTable.Contract
