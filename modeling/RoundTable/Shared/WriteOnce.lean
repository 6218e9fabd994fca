set_option autoImplicit false

namespace WriteOnce

variable {Step Value : Type}

-- What one step does to a register: creates it, or finds it and writes to it in order.
structure Register (Step Value : Type) where
  creates : Step → Prop
  holds : Step → Prop
  writes : Step → List Value

namespace Register

variable (register : Register Step Value)

def Unwritten (steps : List Step) : Prop :=
  ∃ before creation waiting, steps = before ++ creation :: waiting ∧ register.creates creation ∧
    ∀ step ∈ waiting, register.holds step ∧ register.writes step = []

def First (value : Value) (steps : List Step) : Prop :=
  ∃ before written after, steps = before ++ written :: after ∧ register.Unwritten before ∧
    register.holds written ∧ (register.writes written).head? = some value ∧
      ∀ step ∈ after, register.holds step

-- What the steps tell of the content of the register.
def Told (steps : List Step) : Option Value → Prop
  | none => register.Unwritten steps
  | some value => register.First value steps

variable {register} {steps : List Step} {step : Step}

theorem Told.created (creates : register.creates step) : register.Told (steps ++ [step]) none :=
  ⟨steps, step, [], rfl, creates, by simp⟩

theorem Unwritten.kept (unwritten : register.Unwritten steps) (holds : register.holds step)
    (idle : register.writes step = []) : register.Unwritten (steps ++ [step]) := by
  obtain ⟨before, creation, waiting, rfl, creates, waits⟩ := unwritten
  refine ⟨before, creation, waiting ++ [step], by simp, creates, fun other member => ?_⟩
  rcases List.mem_append.mp member with earlier | last
  · exact waits other earlier
  · obtain rfl := List.mem_singleton.mp last
    exact ⟨holds, idle⟩

theorem First.kept {value : Value} (first : register.First value steps)
    (holds : register.holds step) : register.First value (steps ++ [step]) := by
  obtain ⟨before, written, after, rfl, unwritten, held, writes, stays⟩ := first
  refine ⟨before, written, after ++ [step], by simp, unwritten, held, writes,
    fun other member => ?_⟩
  rcases List.mem_append.mp member with earlier | last
  · exact stays other earlier
  · obtain rfl := List.mem_singleton.mp last
    exact holds

theorem Told.kept {content : Option Value} (told : register.Told steps content)
    (holds : register.holds step) :
    register.Told (steps ++ [step]) (content.or (register.writes step).head?) := by
  cases content with
  | some value => exact First.kept told holds
  | none =>
    cases writes : register.writes step with
    | nil => exact Unwritten.kept told holds writes
    | cons value rest =>
      exact ⟨steps, step, [], rfl, told, holds, by rw [writes]; rfl, by simp⟩

end Register

end WriteOnce
