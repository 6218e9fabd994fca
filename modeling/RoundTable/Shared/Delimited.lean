import Mathlib.Data.List.Infix

set_option autoImplicit false

namespace Delimited

variable {α : Type}

def join (delimiter : α) (words : List (List α)) : List α :=
  words.flatMap fun word => delimiter :: word

@[simp] theorem join_nil (delimiter : α) : join delimiter [] = [] := rfl

@[simp] theorem join_cons (delimiter : α) (word : List α) (words : List (List α)) :
    join delimiter (word :: words) = delimiter :: (word ++ join delimiter words) := rfl

theorem join_append (delimiter : α) (words words' : List (List α)) :
    join delimiter (words ++ words') = join delimiter words ++ join delimiter words' :=
  List.flatMap_append

theorem infix_join_of_mem {delimiter : α} {word : List α} {words : List (List α)}
    (member : word ∈ words) : word <:+: join delimiter words := by
  obtain ⟨before, after, rfl⟩ := List.append_of_mem member
  exact ⟨join delimiter before ++ [delimiter], join delimiter after, by simp [join_append]⟩

theorem infix_append_cons {delimiter : α} {name : List α} (free : delimiter ∉ name)
    (xs ys : List α) :
    name <:+: xs ++ delimiter :: ys ↔ name <:+: xs ∨ name <:+: ys := by
  constructor
  · rintro ⟨before, after, split⟩
    rw [List.append_eq_append_iff] at split
    obtain ⟨rest, inXs, -⟩ | ⟨rest, past, tail⟩ := split
    · exact .inl ⟨before, rest, inXs.symm⟩
    · cases rest with
      | nil => exact .inl ⟨before, [], by simpa using past⟩
      | cons c rest =>
        obtain ⟨rfl, rfl⟩ := List.cons.inj tail
        -- the delimiter is not in the name, so it stands before it
        rw [List.append_eq_append_iff] at past
        obtain ⟨gap, -, inName⟩ | ⟨gap, -, inFront⟩ := past
        · exact absurd (by simp [inName]) free
        · cases gap with
          | nil =>
            rw [List.nil_append] at inFront
            exact absurd (by simp [← inFront]) free
          | cons c gap =>
            obtain ⟨-, rfl⟩ := List.cons.inj inFront
            exact .inr ⟨gap, after, rfl⟩
  · rintro (inXs | inYs)
    · exact inXs.trans (List.prefix_append xs _).isInfix
    · exact inYs.trans ⟨xs ++ [delimiter], [], by simp⟩

theorem infix_append_join {delimiter : α} {name : List α} (nonempty : name ≠ [])
    (free : delimiter ∉ name) (word : List α) (words : List (List α)) :
    name <:+: word ++ join delimiter words ↔ name <:+: word ∨ name <:+: join delimiter words := by
  cases words with
  | nil => simp [nonempty]
  | cons next words =>
    have nowhere : ¬name <:+: [] := by simpa using nonempty
    have inner := infix_append_cons free [] (next ++ join delimiter words)
    rw [List.nil_append] at inner
    rw [join_cons, infix_append_cons free, inner]
    simp [nowhere]

theorem infix_join_iff {delimiter : α} {name : List α} (nonempty : name ≠ [])
    (free : delimiter ∉ name) (words : List (List α)) :
    name <:+: join delimiter words ↔ ∃ word ∈ words, name <:+: word := by
  induction words with
  | nil => simp [nonempty]
  | cons word words ih =>
    have nowhere : ¬name <:+: [] := by simpa using nonempty
    have inner := infix_append_cons free [] (word ++ join delimiter words)
    rw [List.nil_append] at inner
    rw [join_cons, inner, infix_append_join nonempty free, ih]
    simp [nowhere]

theorem prefix_of_prefix_append_cons {delimiter : α} {name : List α} (free : delimiter ∉ name)
    {word rest : List α} (fits : name <+: word ++ delimiter :: rest) : name <+: word := by
  by_cases short : name.length ≤ word.length
  · exact List.prefix_of_prefix_length_le fits (List.prefix_append word _) short
  · have starts : word ++ [delimiter] <+: word ++ delimiter :: rest := ⟨rest, by simp⟩
    have longer : word ++ [delimiter] <+: name := by
      apply List.prefix_of_prefix_length_le starts fits
      rw [List.length_append, List.length_singleton]
      omega
    exact absurd (longer.subset (by simp)) free

theorem prefix_append_join_iff {delimiter : α} {name : List α} (free : delimiter ∉ name)
    (word : List α) (words : List (List α)) :
    name <+: word ++ join delimiter words ↔ name <+: word := by
  constructor
  · intro fits
    cases words with
    | nil => simpa using fits
    | cons next words => exact prefix_of_prefix_append_cons free fits
  · exact fun fits => fits.trans (List.prefix_append word _)

section Decidable

variable [DecidableEq α]

-- `skip` counts the characters of a match that are still to be dropped.
def removeFrom (pattern : List α) : Nat → List α → List α
  | _, [] => []
  | skip + 1, _ :: rest => removeFrom pattern skip rest
  | 0, c :: rest =>
    if pattern <+: c :: rest then removeFrom pattern (pattern.length - 1) rest
    else c :: removeFrom pattern 0 rest

def removeAll (pattern text : List α) : List α := removeFrom pattern 0 text

theorem removeFrom_skip (pattern xs rest : List α) :
    removeFrom pattern xs.length (xs ++ rest) = removeFrom pattern 0 rest := by
  induction xs with
  | nil => rfl
  | cons x xs ih => exact ih

theorem removeFrom_sublist (pattern : List α) (skip : Nat) (text : List α) :
    (removeFrom pattern skip text).Sublist text := by
  induction text generalizing skip with
  | nil => cases skip <;> exact List.Sublist.refl _
  | cons c rest ih =>
    cases skip with
    | zero =>
      rw [removeFrom]
      split
      · exact (ih _).cons c
      · exact (ih 0).cons_cons c
    | succ skip => exact (ih skip).cons c

theorem removeAll_sublist (pattern text : List α) : (removeAll pattern text).Sublist text :=
  removeFrom_sublist pattern 0 text

theorem removeFrom_word {delimiter : α} {name word : List α} (free : delimiter ∉ word)
    (rest : List α) :
    removeFrom (delimiter :: name) 0 (word ++ rest) =
      word ++ removeFrom (delimiter :: name) 0 rest := by
  induction word with
  | nil => rfl
  | cons c word ih =>
    have other : ¬delimiter :: name <+: c :: (word ++ rest) := by
      intro fits
      obtain ⟨rfl, -⟩ := List.cons_prefix_cons.mp fits
      exact free (by simp)
    rw [List.cons_append, removeFrom, if_neg other, ih fun inside => free (by simp [inside])]
    rfl

-- A match behind a delimiter starts a word, of which the rest moves to the word before it.
theorem removeAll_join_eq {delimiter : α} {name : List α} (freeName : delimiter ∉ name)
    {words : List (List α)} (free : ∀ word ∈ words, delimiter ∉ word) :
    removeAll (delimiter :: name) (join delimiter words) =
      words.flatMap fun word =>
        if name <+: word then word.drop name.length else delimiter :: word := by
  unfold removeAll
  induction words with
  | nil => rfl
  | cons word words ih =>
    have freeWord := free word (by simp)
    have rest := ih fun word member => free word (by simp [member])
    rw [join_cons, removeFrom, List.flatMap_cons]
    simp only [List.cons_prefix_cons, true_and, prefix_append_join_iff freeName]
    split_ifs with starts
    · obtain ⟨tail, rfl⟩ := starts
      have freeTail : delimiter ∉ tail := fun inside => freeWord (by simp [inside])
      rw [List.length_cons, Nat.add_sub_cancel, List.append_assoc, removeFrom_skip,
        removeFrom_word freeTail, rest, List.drop_left]
    · rw [removeFrom_word freeWord, rest]
      rfl

theorem removeAll_join {delimiter : α} {name : List α} (freeName : delimiter ∉ name)
    {words : List (List α)} (free : ∀ word ∈ words, delimiter ∉ word)
    (apart : ∀ word ∈ words, name <+: word → name = word) :
    removeAll (delimiter :: name) (join delimiter words) =
      join delimiter (words.filter (· ≠ name)) := by
  rw [removeAll_join_eq freeName free]
  induction words with
  | nil => rfl
  | cons word words ih =>
    rw [List.flatMap_cons, ih (fun word member => free word (by simp [member]))
      (fun word member => apart word (by simp [member]))]
    by_cases same : name = word
    · simp [same]
    · have other : ¬name <+: word := fun starts => same (apart word (by simp) starts)
      simp [other, Ne.symm same]

theorem removeAll_append {delimiter : α} {name : List α} (free : delimiter ∉ name) {text : List α}
    (absent : ¬name <:+: text) :
    removeAll (delimiter :: name) (text ++ delimiter :: name) = text := by
  unfold removeAll
  induction text with
  | nil =>
    have rest := removeFrom_skip (delimiter :: name) name []
    rw [List.append_nil] at rest
    rw [List.nil_append, removeFrom, if_pos List.prefix_rfl, List.length_cons, Nat.add_sub_cancel,
      rest]
    rfl
  | cons c text ih =>
    have other : ¬delimiter :: name <+: c :: (text ++ delimiter :: name) := by
      intro fits
      have early := prefix_of_prefix_append_cons free (List.cons_prefix_cons.mp fits).2
      exact absent (early.isInfix.trans (List.suffix_cons c text).isInfix)
    have absentRest : ¬name <:+: text := fun inside =>
      absent (inside.trans (List.suffix_cons c text).isInfix)
    rw [List.cons_append, removeFrom, if_neg other, ih absentRest]

theorem splitOn_join {delimiter : α} {words : List (List α)}
    (free : ∀ word ∈ words, delimiter ∉ word) :
    (join delimiter words).splitOn delimiter = [] :: words := by
  have split (word : List α) (freeWord : delimiter ∉ word) :
      (word ++ join delimiter words).splitOn delimiter = word :: words := by
    induction words generalizing word with
    | nil => simpa using List.splitOn_eq_singleton freeWord
    | cons next words ih =>
      rw [join_cons, List.splitOn_append_cons_self_of_not_mem freeWord,
        ih (fun word member => free word (by simp [member])) next (free next (by simp))]
  simpa using split [] (by simp)

theorem join_splitOn (delimiter : α) (text : List α) :
    join delimiter (text.splitOn delimiter) = delimiter :: text := by
  induction text with
  | nil => simp
  | cons c text ih =>
    rw [List.splitOn_cons_eq_if_modifyHead]
    obtain ⟨word, words, split⟩ := List.exists_cons_of_ne_nil (List.splitOn_ne_nil delimiter text)
    rw [split] at ih ⊢
    rw [join_cons] at ih
    split_ifs with same
    · rw [eq_of_beq same, join_cons, join_cons, ih]
      rfl
    · rw [List.modifyHead_cons, join_cons, List.cons_append, (List.cons.inj ih).2]

theorem length_splitOn (delimiter : α) (text : List α) :
    (text.splitOn delimiter).length = text.count delimiter + 1 := by
  induction text with
  | nil => simp
  | cons c text ih =>
    rw [List.splitOn_cons_eq_if_modifyHead, List.count_cons]
    split_ifs with same
    · rw [List.length_cons, ih]
    · rw [List.length_modifyHead, ih, Nat.add_zero]

theorem count_removeAll_join {delimiter : α} {name : List α} (freeName : delimiter ∉ name)
    {words : List (List α)} (free : ∀ word ∈ words, delimiter ∉ word) :
    (removeAll (delimiter :: name) (join delimiter words)).count delimiter =
      (words.filter fun word => ¬name <+: word).length := by
  rw [removeAll_join_eq freeName free]
  induction words with
  | nil => rfl
  | cons word words ih =>
    have rest := ih fun word member => free word (by simp [member])
    have none : word.count delimiter = 0 := List.count_eq_zero.mpr (free word (by simp))
    rw [List.flatMap_cons, List.count_append, rest]
    by_cases starts : name <+: word
    · have tail : (word.drop name.length).count delimiter = 0 :=
        List.count_eq_zero.mpr fun inside => free word (by simp) (List.mem_of_mem_drop inside)
      simp [starts, tail]
    · simp [starts, none, Nat.add_comm]

end Decidable

end Delimited
