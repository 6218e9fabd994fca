import Mathlib.Data.List.Basic

set_option autoImplicit false

namespace Requests

variable {α : Type}

inductive Mark (α : Type) where
  | accepted (request : α)
  | answered (request : α)
deriving DecidableEq

/-- The marks of a server, and the request that waits after them. -/
inductive Served : List (Mark α) → Option α → Prop where
  | start : Served [] none
  | accepted {marks : List (Mark α)} (request : α) (served : Served marks none) :
      Served (marks ++ [.accepted request]) (some request)
  | answered {marks : List (Mark α)} {request : α} (served : Served marks (some request)) :
      Served (marks ++ [.answered request]) none

namespace Served

variable {marks : List (Mark α)} {waiting : Option α}

theorem waiting_iff (served : Served marks waiting) (request : α) :
    waiting = some request ↔ marks.getLast? = some (.accepted request) := by
  cases served <;> simp

theorem waits_iff (served : Served marks waiting) :
    waiting ≠ none ↔ ∃ request, marks.getLast? = some (.accepted request) := by
  rw [Option.ne_none_iff_exists']
  exact exists_congr served.waiting_iff

theorem answers (served : Served marks waiting) {before after : List (Mark α)} {request : α}
    (split : marks = before ++ .answered request :: after) :
    ∃ earlier, before = earlier ++ [.accepted request] := by
  induction served generalizing after with
  | start => simp at split
  | accepted request' served ih =>
    rcases List.eq_nil_or_concat after with rfl | ⟨rest, last, rfl⟩
    · have same := (List.append_inj' split rfl).2
      simp at same
    · rw [List.concat_eq_append, ← List.cons_append, ← List.append_assoc] at split
      exact ih (List.append_inj' split rfl).1
  | @answered marks request' served ih =>
    rcases List.eq_nil_or_concat after with rfl | ⟨rest, last, rfl⟩
    · obtain ⟨rfl, same⟩ := List.append_inj' split rfl
      obtain rfl : request' = request := by simpa using same
      exact List.getLast?_eq_some_iff.mp ((served.waiting_iff request').mp rfl)
    · rw [List.concat_eq_append, ← List.cons_append, ← List.append_assoc] at split
      exact ih (List.append_inj' split rfl).1

theorem accepted_between (served : Served marks waiting) {before between after : List (Mark α)}
    {first second : α}
    (split : marks = before ++ .answered first :: between ++ .answered second :: after) :
    .accepted second ∈ between := by
  obtain ⟨earlier, ends⟩ := served.answers split
  rcases List.eq_nil_or_concat between with rfl | ⟨rest, last, rfl⟩
  · have same := (List.append_inj' ends rfl).2
    simp at same
  · rw [List.concat_eq_append, ← List.cons_append, ← List.append_assoc] at ends
    have same := (List.append_inj' ends rfl).2
    rw [List.concat_eq_append, same]
    exact List.mem_append_right _ (List.mem_singleton_self _)

theorem count_answered_le [DecidableEq α] (served : Served marks waiting) (request : α) :
    marks.count (.answered request) ≤ marks.count (.accepted request) := by
  suffices counted : marks.count (.accepted request) =
      marks.count (.answered request) + if waiting = some request then 1 else 0 by omega
  induction served with
  | start => rfl
  | accepted request' served ih =>
    by_cases same : request' = request <;> simp_all [List.count_append]
  | answered served ih =>
    simp only [List.count_append, List.count_singleton, ih]
    split_ifs <;> simp_all

end Served

end Requests
