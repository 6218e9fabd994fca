import RoundTable.Shared.PublicKey

set_option autoImplicit false

structure Bytes (n : Nat) where
  toList : List UInt8
  length_eq : toList.length = n
deriving DecidableEq

namespace Borsh

abbrev Reader (α : Type) := List UInt8 → Option (α × List UInt8)

def array (n : Nat) : Reader (Bytes n) := fun bytes =>
  if inside : n ≤ bytes.length then
    some (⟨bytes.take n, List.length_take_of_le inside⟩, bytes.drop n)
  else none

def publicKey : Reader PublicKey := fun bytes =>
  (array 32 bytes).map fun (key, rest) => (⟨key.toList, key.length_eq⟩, rest)

def bool : Reader Bool
  | [] => none
  | b :: rest => if b = 0 then some (false, rest) else if b = 1 then some (true, rest) else none

def ofBool (value : Bool) : UInt8 := if value then 1 else 0

def tryFromSlice {α : Type} (reader : Reader α) (bytes : List UInt8) : Option α :=
  match reader bytes with
  | some (value, []) => some value
  | _ => none

theorem array_append {n : Nat} (value : Bytes n) (rest : List UInt8) :
    array n (value.toList ++ rest) = some (value, rest) := by
  obtain ⟨bytes, rfl⟩ := value
  simp [array]

theorem array_some {n : Nat} {bytes rest : List UInt8} {value : Bytes n}
    (read : array n bytes = some (value, rest)) : bytes = value.toList ++ rest := by
  unfold array at read
  split at read
  next inside =>
    obtain ⟨rfl, rfl⟩ := Prod.mk.inj (Option.some.inj read)
    exact (List.take_append_drop n bytes).symm
  next => cases read

theorem publicKey_append (key : PublicKey) (rest : List UInt8) :
    publicKey (key.bytes ++ rest) = some (key, rest) := by
  have read := array_append ⟨key.bytes, key.length_eq⟩ rest
  simp only at read
  simp [publicKey, read]

theorem bool_append (value : Bool) (rest : List UInt8) :
    bool (ofBool value :: rest) = some (value, rest) := by
  cases value <;> simp [bool, ofBool]

theorem bool_some {bytes rest : List UInt8} {value : Bool} (read : bool bytes = some (value, rest)) :
    bytes = ofBool value :: rest := by
  cases bytes with
  | nil => cases read
  | cons b bytes =>
    simp only [bool] at read
    split at read
    next zero =>
      obtain ⟨rfl, rfl⟩ := Prod.mk.inj (Option.some.inj read)
      rw [zero]
      rfl
    next =>
      split at read
      next one =>
        obtain ⟨rfl, rfl⟩ := Prod.mk.inj (Option.some.inj read)
        rw [one]
        rfl
      next => cases read

end Borsh
