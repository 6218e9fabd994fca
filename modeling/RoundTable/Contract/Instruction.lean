import RoundTable.Shared.Borsh

set_option autoImplicit false

namespace RoundTable.Contract

inductive RoundNetInstruction where
  | InitTable (closed : Bool)
  | DeleteTable
  | AddBootstrap (bootstrap : Bytes 128)
  | RemoveBootstrap (bootstrap : Bytes 128)
  | AddChannelArgs (channel : Bytes 128)
  | RemoveChannelArgs (channel : Bytes 128)
  | AddSeat (channelKey : PublicKey)
  | RemoveSeat
deriving DecidableEq

-- The tag is one byte, in the order of declaration.
def RoundNetInstruction.deserialize : Borsh.Reader RoundNetInstruction
  | [] => none
  | tag :: bytes =>
    if tag = 0 then (Borsh.bool bytes).map fun (closed, rest) => (.InitTable closed, rest)
    else if tag = 1 then some (.DeleteTable, bytes)
    else if tag = 2 then
      (Borsh.array 128 bytes).map fun (bootstrap, rest) => (.AddBootstrap bootstrap, rest)
    else if tag = 3 then
      (Borsh.array 128 bytes).map fun (bootstrap, rest) => (.RemoveBootstrap bootstrap, rest)
    else if tag = 4 then
      (Borsh.array 128 bytes).map fun (channel, rest) => (.AddChannelArgs channel, rest)
    else if tag = 5 then
      (Borsh.array 128 bytes).map fun (channel, rest) => (.RemoveChannelArgs channel, rest)
    else if tag = 6 then
      (Borsh.publicKey bytes).map fun (channelKey, rest) => (.AddSeat channelKey, rest)
    else if tag = 7 then some (.RemoveSeat, bytes)
    else none

def RoundNetInstruction.serialize : RoundNetInstruction → List UInt8
  | .InitTable closed => [0, Borsh.ofBool closed]
  | .DeleteTable => [1]
  | .AddBootstrap bootstrap => 2 :: bootstrap.toList
  | .RemoveBootstrap bootstrap => 3 :: bootstrap.toList
  | .AddChannelArgs channel => 4 :: channel.toList
  | .RemoveChannelArgs channel => 5 :: channel.toList
  | .AddSeat channelKey => 6 :: channelKey.bytes
  | .RemoveSeat => [7]

theorem RoundNetInstruction.tryFromSlice_serialize (instruction : RoundNetInstruction) :
    Borsh.tryFromSlice RoundNetInstruction.deserialize instruction.serialize = some instruction := by
  have array (value : Bytes 128) : Borsh.array 128 value.toList = some (value, []) := by
    simpa using Borsh.array_append value []
  have key (value : PublicKey) : Borsh.publicKey value.bytes = some (value, []) := by
    simpa using Borsh.publicKey_append value []
  cases instruction <;>
    simp [serialize, deserialize, Borsh.tryFromSlice, array, key, Borsh.bool_append]

inductive Errors where
  | MissingBaseAccounts
  | Account0MustBeSigner
  | Account1MustBeProgramID
  | FailedToDeserialiseInstruction
  | BadTableAccount
  | BadSeatAccount
  | FailedToDeserialiseTableData
  | EntryAlreadyExists
  | EntryDoesntExist
  | Error
deriving DecidableEq

end RoundTable.Contract
