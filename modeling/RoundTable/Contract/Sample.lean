import RoundTable.Contract.Places

set_option autoImplicit false

/-!
# A runtime for concrete runs

The system program checks what the real one checks. The two addresses that the runs derive are the
real ones, and every other address is a stand-in.
-/

namespace RoundTable.Contract.Sample

def owner : PublicKey := .small 2

def user : PublicKey := .small 5

def table : PublicKey where
  bytes :=
    [21, 219, 200, 240, 131, 209, 249, 19, 45, 164, 105, 200, 135, 165, 30, 47,
      160, 77, 21, 205, 224, 73, 201, 78, 44, 144, 243, 126, 149, 134, 184, 178]
  length_eq := rfl

def seat : PublicKey where
  bytes :=
    [14, 40, 103, 93, 76, 147, 101, 79, 220, 154, 129, 145, 47, 24, 20, 133,
      168, 75, 102, 9, 168, 13, 51, 246, 150, 101, 34, 222, 43, 45, 18, 91]
  length_eq := rfl

-- A 32-byte number that depends on every byte of the seeds.
def standIn (seeds : List (List UInt8)) : PublicKey where
  bytes := List.ofFn fun i : Fin 32 =>
    UInt8.ofNat ((Base58.value seeds.flatten + 1) * 3 ^ 200 % (2 ^ 255 - 19) / 256 ^ (31 - i.val))
  length_eq := List.length_ofFn

def findProgramAddress (seeds : List (List UInt8)) (programId : PublicKey) : PublicKey × UInt8 :=
  if programId = PROGRAM_ID ∧ seeds = [owner.bytes] then (table, 255)
  else if programId = PROGRAM_ID ∧ seeds = [table.bytes, user.bytes] then (seat, 253)
  else (standIn seeds, 255)

def createProgramAddress (seeds : List (List UInt8)) (programId : PublicKey) : Option PublicKey :=
  let (address, bump) := findProgramAddress seeds.dropLast programId
  if seeds.getLast? = some [bump] then some address else none

def system : SystemInstruction → (PublicKey → Bool) → Ledger → Option Ledger
  | .allocate account space, signed, ledger =>
    if signed account = true ∧ (ledger account).owner = systemProgramId ∧ (ledger account).data = [] then
      some (ledger.setData account (List.replicate space 0))
    else none
  | .transfer source destination lamports, signed, ledger =>
    if signed source = true ∧ (ledger source).owner = systemProgramId ∧ (ledger source).data = [] ∧
        lamports ≤ (ledger source).lamports then
      some (ledger.transfer source destination lamports)
    else none
  | .assign account owner, signed, ledger =>
    if (ledger account).owner = owner ∨
        signed account = true ∧ (ledger account).owner = systemProgramId ∧
          (ledger account).data.all (· == 0) then
      some (ledger.setOwner account owner)
    else none

def runtime : Runtime where
  findProgramAddress := findProgramAddress
  createProgramAddress := createProgramAddress
  system := system
  rentDue := fun space => (128 + space) * 3480 * 2001 / 1000

theorem runtime_documented : runtime.Documented where
  allocate account space signed ledger ledger' done := by
    simp only [runtime, system, Option.ite_none_right_eq_some, Option.some.injEq] at done
    obtain ⟨⟨-, systemOwned, absent⟩, rfl⟩ := done
    exact ⟨systemOwned, absent, rfl⟩
  transfer source destination lamports signed ledger ledger' done := by
    simp only [runtime, system, Option.ite_none_right_eq_some, Option.some.injEq] at done
    obtain ⟨⟨-, systemOwned, -, enough⟩, rfl⟩ := done
    exact ⟨systemOwned, enough, rfl⟩
  assign account owner signed ledger ledger' done := by
    simp only [runtime, system, Option.ite_none_right_eq_some, Option.some.injEq] at done
    obtain ⟨own | ⟨-, systemOwned, -⟩, rfl⟩ := done
    · exact ⟨.inr own, rfl⟩
    · exact ⟨.inl systemOwned, rfl⟩
  rent space := by
    simp only [runtime]
    omega

def places (keys : List PublicKey) : List Place :=
  keys.map .table ++ keys.flatMap fun owner => keys.map (.seat owner)

theorem mem_places {keys : List PublicKey} {place : Place} :
    place ∈ places keys ↔ place.Within {key | key ∈ keys} := by
  cases place <;> simp [places, Place.Within]

theorem distinct_of_nodup {keys : List PublicKey}
    (nodup : ((places keys).map fun place => place.address runtime PROGRAM_ID).Nodup) :
    runtime.Distinct PROGRAM_ID {key | key ∈ keys} := by
  rintro _ ⟨place, within, rfl⟩ _ ⟨place', within', rfl⟩ met
  rw [List.inj_on_of_nodup_map nodup (mem_places.mpr within) (mem_places.mpr within') met]

def keys : List PublicKey := [user, PROGRAM_ID, owner, table, seat, systemProgramId]

theorem distinct : runtime.Distinct PROGRAM_ID {key | key ∈ keys} :=
  distinct_of_nodup (by decide +kernel)

theorem signer_not_derived {key : PublicKey} (signs : key = user ∨ key = owner) {place : Place}
    (within : place.Within {key | key ∈ keys}) : key ≠ place.address runtime PROGRAM_ID := by
  have different : ∀ place ∈ places keys, user ≠ place.address runtime PROGRAM_ID ∧
      owner ≠ place.address runtime PROGRAM_ID := by decide +kernel
  obtain rfl | rfl := signs
  · exact (different place (mem_places.mpr within)).1
  · exact (different place (mem_places.mpr within)).2

def funded : Ledger := fun key =>
  if key = owner ∨ key = user then ⟨1000000000, [], systemProgramId⟩ else .absent

def closedTable : Ledger :=
  Function.update funded table ⟨8028892, (TableData.new true).serialize, PROGRAM_ID⟩

def tableAccounts : List AccountInfo :=
  [⟨owner, true, true⟩, ⟨PROGRAM_ID, false, false⟩, ⟨table, false, true⟩,
    ⟨systemProgramId, false, false⟩]

def seatAccounts (ownerSigns : Bool) : List AccountInfo :=
  [⟨user, true, true⟩, ⟨PROGRAM_ID, false, false⟩, ⟨owner, ownerSigns, false⟩,
    ⟨table, false, false⟩, ⟨seat, false, true⟩, ⟨systemProgramId, false, false⟩]

end RoundTable.Contract.Sample
