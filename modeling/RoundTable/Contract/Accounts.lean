import RoundTable.Shared.Borsh
import RoundTable.Contract.Runtime

set_option autoImplicit false

namespace RoundTable.Contract

structure TableData where
  servers : Bytes 512
  channels : Bytes 512
  closed : Bool
deriving DecidableEq

structure SeatData where
  channelPubkey : PublicKey
deriving DecidableEq

def PROGRAM_ID : PublicKey where
  bytes :=
    [219, 143, 107, 115, 128, 229, 215, 150, 159, 183, 254, 95, 6, 17, 219, 133,
      41, 102, 124, 120, 158, 103, 172, 166, 215, 251, 26, 73, 240, 84, 92, 132]
  length_eq := rfl

example : PROGRAM_ID.toString = "Fn58N3tZQHg7Rj64VCH63D4nFhu2Nofwzvn9hC1qXHbZ" := by decide +kernel

def TABLE_DATA_SIZE : Nat := 1025
def SEAT_DATA_SIZE : Nat := 32

namespace TableData

def serialize (table : TableData) : List UInt8 :=
  table.servers.toList ++ (table.channels.toList ++ [Borsh.ofBool table.closed])

def deserialize : Borsh.Reader TableData := fun bytes => do
  let (servers, bytes) ← Borsh.array 512 bytes
  let (channels, bytes) ← Borsh.array 512 bytes
  let (closed, bytes) ← Borsh.bool bytes
  return (⟨servers, channels, closed⟩, bytes)

theorem length_serialize (table : TableData) : table.serialize.length = TABLE_DATA_SIZE := by
  simp [serialize, table.servers.length_eq, table.channels.length_eq, TABLE_DATA_SIZE]

theorem serialize_ne_nil (table : TableData) : table.serialize ≠ [] :=
  List.ne_nil_of_length_pos (by rw [length_serialize, TABLE_DATA_SIZE]; omega)

theorem deserialize_append (table : TableData) (rest : List UInt8) :
    deserialize (table.serialize ++ rest) = some (table, rest) := by
  simp [deserialize, serialize, Borsh.array_append, Borsh.bool_append]

theorem serialize_injective : Function.Injective serialize := by
  intro table table' same
  have read := deserialize_append table []
  rw [same, deserialize_append] at read
  exact (Prod.mk.inj (Option.some.inj read)).1.symm

theorem of_deserialize {data rest : List UInt8} {table : TableData}
    (read : deserialize data = some (table, rest)) : data = table.serialize ++ rest := by
  simp only [deserialize, Option.bind_eq_bind, Option.bind_eq_some_iff, Option.pure_def] at read
  obtain ⟨⟨servers, afterServers⟩, first, ⟨channels, afterChannels⟩, second, ⟨closed, afterClosed⟩,
    third, same⟩ := read
  obtain ⟨rfl, rfl⟩ := Prod.mk.inj (Option.some.inj same)
  simp only at second third
  rw [Borsh.array_some first, Borsh.array_some second, Borsh.bool_some third]
  simp [serialize]

theorem deserialize_closed_iff {data : List UInt8} :
    (∃ table rest, deserialize data = some (table, rest) ∧ table.closed = true) ↔
      data[1024]? = some 1 := by
  constructor
  · rintro ⟨table, rest, read, closed⟩
    have lists : (table.servers.toList ++ table.channels.toList).length = 1024 := by
      simp [table.servers.length_eq, table.channels.length_eq]
    rw [of_deserialize read, serialize, ← List.append_assoc, List.append_assoc,
      List.getElem?_append_right lists.le, lists, closed]
    rfl
  · intro flag
    obtain ⟨long, isOne⟩ := List.getElem?_eq_some_iff.mp flag
    let table : TableData :=
      { servers := ⟨data.take 512, List.length_take_of_le (by omega)⟩
        channels := ⟨(data.drop 512).take 512, by simp; omega⟩
        closed := true }
    have flagged : (data.drop 512).drop 512 = 1 :: data.drop 1025 := by
      rw [List.drop_drop, List.drop_eq_getElem_cons long, isOne]
    have whole : data = table.serialize ++ data.drop 1025 :=
      calc data = data.take 512 ++ ((data.drop 512).take 512 ++ (data.drop 512).drop 512) := by
            rw [List.take_append_drop, List.take_append_drop]
        _ = data.take 512 ++ ((data.drop 512).take 512 ++ 1 :: data.drop 1025) := by rw [flagged]
        _ = table.serialize ++ data.drop 1025 := by simp [table, serialize, Borsh.ofBool]
    have read := deserialize_append table (data.drop 1025)
    rw [← whole] at read
    exact ⟨table, _, read, rfl⟩

theorem serialize_closed_iff (table : TableData) :
    table.serialize[1024]? = some 1 ↔ table.closed = true := by
  have read := deserialize_append table []
  rw [List.append_nil] at read
  rw [← deserialize_closed_iff, read]
  simp

end TableData

namespace SeatData

def serialize (seat : SeatData) : List UInt8 := seat.channelPubkey.bytes

theorem length_serialize (seat : SeatData) : seat.serialize.length = SEAT_DATA_SIZE :=
  seat.channelPubkey.length_eq

end SeatData

-- The seeds of an address, the bump included, and the address.
def deriveTableSeed (runtime : Runtime) (owner programId : PublicKey) :
    List (List UInt8) × PublicKey :=
  let seed := [owner.bytes]
  let (pda, pad) := runtime.findProgramAddress seed programId
  (seed ++ [[pad]], pda)

def deriveSeatSeed (runtime : Runtime) (table user programId : PublicKey) :
    List (List UInt8) × PublicKey :=
  let seed := [table.bytes, user.bytes]
  let (pda, pad) := runtime.findProgramAddress seed programId
  (seed ++ [[pad]], pda)

end RoundTable.Contract
