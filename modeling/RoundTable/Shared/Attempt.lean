import Mathlib.Tactic.TypeStar

set_option autoImplicit false

abbrev Attempt (σ ε : Type) := StateT σ (Except ε)

namespace Attempt

variable {σ ε α β : Type}

theorem bind_ok {first : Attempt σ ε α} {next : α → Attempt σ ε β} {state : σ} {result : β × σ} :
    (first >>= next).run state = .ok result ↔
      ∃ value middle, first.run state = .ok (value, middle) ∧
        (next value).run middle = .ok result := by
  rw [StateT.run_bind]
  cases first.run state with
  | error failure => simp [bind, Except.bind]
  | ok pair =>
    obtain ⟨value, middle⟩ := pair
    constructor
    · exact fun done => ⟨value, middle, rfl, done⟩
    · rintro ⟨_, _, same, done⟩
      obtain ⟨rfl, rfl⟩ := Prod.mk.inj (Except.ok.inj same)
      exact done

theorem run_bind_of_ok {first : Attempt σ ε α} {state middle : σ} {value : α}
    (done : first.run state = .ok (value, middle)) (next : α → Attempt σ ε β) :
    (first >>= next).run state = (next value).run middle := by
  rw [StateT.run_bind, done]
  rfl

theorem run_bind_of_error {first : Attempt σ ε α} {state : σ} {failure : ε}
    (failed : first.run state = .error failure) (next : α → Attempt σ ε β) :
    (first >>= next).run state = .error failure := by
  rw [StateT.run_bind, failed]
  rfl

theorem exists_of_isOk {outcome : Except ε α} (succeeded : outcome.isOk = true) :
    ∃ value, outcome = .ok value := by
  cases outcome with
  | error failure => cases succeeded
  | ok value => exact ⟨value, rfl⟩

theorem toOption_eq_some {outcome : Except ε α} {value : α} :
    outcome.toOption = some value ↔ outcome = .ok value := by
  cases outcome <;> simp [Except.toOption]

@[simp] theorem run_get_bind (next : σ → Attempt σ ε β) (state : σ) :
    (get >>= next).run state = (next state).run state := rfl

@[simp] theorem pure_eq_ok (value : α) : (pure value : Except ε α) = .ok value := rfl

@[simp] theorem throw_eq_error (failure : ε) : (throw failure : Except ε α) = .error failure := rfl

@[simp] theorem ok_bind (value : α) (next : α → Except ε β) :
    ((.ok value : Except ε α) >>= next) = next value := rfl

@[simp] theorem error_bind (failure : ε) (next : α → Except ε β) :
    ((.error failure : Except ε α) >>= next) = .error failure := rfl

theorem bind_eq_error {first : Except ε α} {next : α → Except ε β} {failure : ε}
    (failed : first >>= next = .error failure) :
    first = .error failure ∨ ∃ value, first = .ok value ∧ next value = .error failure := by
  cases first with
  | error failure' =>
    rw [error_bind] at failed
    exact .inl (congrArg Except.error (Except.error.inj failed))
  | ok value => exact .inr ⟨value, rfl, failed⟩

theorem map_eq_ok {outcome : Except ε α} {change : α → β} {value : β}
    (mapped : outcome.map change = .ok value) :
    ∃ source, outcome = .ok source ∧ change source = value := by
  cases outcome with
  | error failure => cases mapped
  | ok source => exact ⟨source, rfl, Except.ok.inj mapped⟩

def FailsOnly (allowed : ε → Prop) (program : Attempt σ ε α) : Prop :=
  ∀ state failure, program.run state = .error failure → allowed failure

section FailsOnly

variable {allowed : ε → Prop}

theorem failsOnly_pure (value : α) : FailsOnly allowed (pure value : Attempt σ ε α) :=
  fun _ _ failed => by cases failed

theorem failsOnly_throw {failure : ε} (isAllowed : allowed failure) :
    FailsOnly allowed (throw failure : Attempt σ ε α) := by
  intro state failure' failed
  obtain rfl := Except.error.inj failed
  exact isAllowed

theorem failsOnly_get : FailsOnly allowed (get : Attempt σ ε σ) :=
  fun _ _ failed => by cases failed

theorem failsOnly_set (state : σ) : FailsOnly allowed (set state : Attempt σ ε PUnit) :=
  fun _ _ failed => by cases failed

theorem failsOnly_modify (change : σ → σ) :
    FailsOnly allowed (modify change : Attempt σ ε Unit) :=
  fun _ _ failed => by cases failed

theorem failsOnly_lift {outcome : Except ε α}
    (fails : ∀ failure, outcome = .error failure → allowed failure) :
    FailsOnly allowed (liftM outcome : Attempt σ ε α) := by
  intro state failure failed
  cases outcome with
  | ok value => cases failed
  | error failure' =>
    obtain rfl := Except.error.inj failed
    exact fails _ rfl

theorem FailsOnly.bind {first : Attempt σ ε α} {next : α → Attempt σ ε β}
    (fails : FailsOnly allowed first) (failsNext : ∀ value, FailsOnly allowed (next value)) :
    FailsOnly allowed (first >>= next) := by
  intro state failure failed
  cases done : first.run state with
  | ok reached =>
    rw [run_bind_of_ok done] at failed
    exact failsNext _ _ _ failed
  | error failure' =>
    rw [run_bind_of_error done] at failed
    obtain rfl := Except.error.inj failed
    exact fails _ _ done

end FailsOnly

end Attempt
