import Mathlib.Data.List.AList

set_option autoImplicit false

namespace AList
variable {α : Type} {β : α → Type} [DecidableEq α]

theorem erase_insert_self (a : α) (b : β a) (s : AList β) : (s.insert a b).erase a = s.erase a := by
  apply AList.ext
  exact List.kerase_cons_eq (s := ⟨a, b⟩) rfl

theorem erase_of_notMem {a : α} {s : AList β} (absent : a ∉ s) : s.erase a = s := by
  apply AList.ext
  exact List.kerase_of_notMem_keys absent

@[simp] theorem erase_erase_self (a : α) (s : AList β) : (s.erase a).erase a = s.erase a :=
  erase_of_notMem (by simp)

theorem mem_values {γ : Type} {s : AList fun _ : α => γ} {value : γ} :
    value ∈ s.entries.map (·.2) ↔ ∃ key, s.lookup key = some value := by
  constructor
  · intro member
    obtain ⟨⟨key, _⟩, entry, rfl⟩ := List.mem_map.mp member
    exact ⟨key, AList.mem_lookup_iff.mpr entry⟩
  · rintro ⟨key, found⟩
    exact List.mem_map.mpr ⟨⟨key, value⟩, AList.mem_lookup_iff.mp found, rfl⟩

theorem lookup_insert_of {key key' : α} {γ : Type} (value : γ) (s : AList fun _ : α => γ) :
    (s.insert key value).lookup key' = if key' = key then some value else s.lookup key' := by
  by_cases same : key' = key
  · subst same
    simp
  · simp [same, AList.lookup_insert_ne same]

theorem lookup_erase_of {key key' : α} {γ : Type} (s : AList fun _ : α => γ) :
    (s.erase key).lookup key' = if key' = key then none else s.lookup key' := by
  by_cases same : key' = key
  · subst same
    simp
  · simp [same, AList.lookup_erase_ne same]

def All {γ : Type} (s : AList fun _ : α => γ) (P : α → γ → Prop) : Prop :=
  ∀ key value, s.lookup key = some value → P key value

namespace All

variable {γ : Type} {s : AList fun _ : α => γ} {P Q : α → γ → Prop}

theorem empty : (∅ : AList fun _ : α => γ).All P := by
  intro key value found
  simp at found

theorem insert (all : s.All P) {key : α} {value : γ} (holds : P key value) :
    All (s.insert key value) P := by
  intro key' value' found
  rw [lookup_insert_of] at found
  split at found
  next same =>
    obtain rfl := Option.some.inj found
    exact same ▸ holds
  next => exact all key' value' found

theorem erase (all : s.All P) (key : α) : All (s.erase key) P := by
  intro key' value' found
  rw [lookup_erase_of] at found
  split at found
  next => cases found
  next => exact all key' value' found

theorem erase_except {key : α} (all : s.All fun key' value => key' ≠ key → P key' value) :
    All (s.erase key) P := by
  intro key' value' found
  rw [lookup_erase_of] at found
  split at found
  next => cases found
  next other => exact all key' value' found other

theorem imp (all : s.All P) (weaker : ∀ key value, P key value → Q key value) : s.All Q :=
  fun key value found => weaker key value (all key value found)

end All

end AList
