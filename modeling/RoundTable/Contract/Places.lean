import Mathlib.Data.Set.Function
import RoundTable.Contract.Handlers

set_option autoImplicit false

namespace RoundTable.Contract

inductive Place where
  | table (owner : PublicKey)
  | seat (owner user : PublicKey)
deriving DecidableEq

namespace Place

variable (runtime : Runtime) (programId : PublicKey)

def seeds : Place → List (List UInt8)
  | .table owner => [owner.bytes]
  | .seat owner user => [(tableAddress runtime programId owner).bytes, user.bytes]

def address (place : Place) : PublicKey :=
  (runtime.findProgramAddress (place.seeds runtime programId) programId).1

def Within (known : Set PublicKey) : Place → Prop
  | .table owner => owner ∈ known
  | .seat owner user => owner ∈ known ∧ user ∈ known

end Place

-- Different seeds have different addresses. There are more seeds than addresses, so this is assumed
-- of the seeds over known keys.
def Runtime.Distinct (runtime : Runtime) (programId : PublicKey) (known : Set PublicKey) : Prop :=
  Set.InjOn (fun seeds => (runtime.findProgramAddress seeds programId).1)
    {seeds | ∃ place : Place, place.Within known ∧ place.seeds runtime programId = seeds}

section Distinct

variable {runtime : Runtime} {programId : PublicKey} {known : Set PublicKey}

theorem Runtime.Distinct.same (distinct : runtime.Distinct programId known) (place place' : Place)
    (within : place.Within known) (within' : place'.Within known)
    (met : place.address runtime programId = place'.address runtime programId) : place = place' := by
  have seeds := distinct ⟨place, within, rfl⟩ ⟨place', within', rfl⟩ met
  cases place with
  | table owner =>
    cases place' with
    | table owner' =>
      simp only [Place.seeds, List.cons.injEq, and_true] at seeds
      rw [PublicKey.ext seeds]
    | seat owner' user' => simp [Place.seeds] at seeds
  | seat owner user =>
    cases place' with
    | table owner' => simp [Place.seeds] at seeds
    | seat owner' user' =>
      simp only [Place.seeds, List.cons.injEq, and_true] at seeds
      -- the tables agree, and so do their owners
      have owners := distinct ⟨.table owner, within.1, rfl⟩ ⟨.table owner', within'.1, rfl⟩
        (PublicKey.ext seeds.1)
      simp only [Place.seeds, List.cons.injEq, and_true] at owners
      rw [PublicKey.ext owners, PublicKey.ext seeds.2]

end Distinct

end RoundTable.Contract
