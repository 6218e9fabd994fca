import RoundTable.Shared.Attempt
import RoundTable.Shared.Delimited
import RoundTable.Shared.Utf8
import RoundTable.Contract.Instruction

set_option autoImplicit false

namespace RoundTable.Contract

-- The places where the program unwraps a failure or leaves a range.
inductive Panic where
  | index
  | range
  | fromUtf8
  | serialize
  | transfer
  | assign
deriving DecidableEq

inductive Failure where
  | error (error : Errors)
  | panic (panic : Panic)
deriving DecidableEq

def fromUtf8 (bytes : List UInt8) : Except Failure (List Char) :=
  match Utf8.decode bytes with
  | some text => .ok text
  | none => .error (.panic .fromUtf8)

def trimNuls (text : List Char) : List Char :=
  (text.dropWhile (· == Utf8.nul)).rdropWhile (· == Utf8.nul)

theorem trimNuls_append_nuls (text : List Char) (n : Nat) :
    trimNuls (text ++ List.replicate n Utf8.nul) = trimNuls text := by
  have padding : (List.replicate n Utf8.nul).dropWhile (· == Utf8.nul) = [] := by
    simp
  rw [trimNuls, List.dropWhile_append, padding]
  split
  next empty => simp [trimNuls, List.isEmpty_iff.mp empty]
  next =>
    rw [trimNuls, List.rdropWhile, List.reverse_append, List.reverse_replicate,
      List.dropWhile_append, padding]
    simp [List.rdropWhile]

theorem trimNuls_sublist (text : List Char) : (trimNuls text).Sublist text :=
  (List.rdropWhile_prefix _ _).sublist.trans (List.dropWhile_suffix _).sublist

theorem trimNuls_eq_self_iff {text : List Char} :
    trimNuls text = text ↔ text.head? ≠ some Utf8.nul ∧ text.getLast? ≠ some Utf8.nul := by
  have front : text.dropWhile (· == Utf8.nul) = text ↔ text.head? ≠ some Utf8.nul := by
    cases text with
    | nil => simp
    | cons c rest => rw [List.dropWhile_eq_self_iff]; simp
  have back : text.rdropWhile (· == Utf8.nul) = text ↔ text.getLast? ≠ some Utf8.nul := by
    rw [List.rdropWhile_eq_self_iff]
    constructor
    · intro kept last
      obtain ⟨before, rfl⟩ := List.getLast?_eq_some_iff.mp last
      exact kept (by simp) (by simp)
    · intro kept nonempty isNul
      exact kept (by simpa [List.getLast?_eq_some_getLast nonempty] using isNul)
  rw [← front, ← back]
  constructor
  · intro kept
    -- nothing was dropped at the front, since nothing came back
    have short := (List.rdropWhile_prefix (· == Utf8.nul) (text.dropWhile (· == Utf8.nul))).length_le
    rw [← trimNuls, kept] at short
    have whole := (List.dropWhile_suffix (· == Utf8.nul) (l := text)).eq_of_length_le short
    exact ⟨whole, by rwa [trimNuls, whole] at kept⟩
  · rintro ⟨whole, kept⟩
    rw [trimNuls, whole, kept]

theorem trimNuls_of_not_nul {text : List Char} (clean : Utf8.nul ∉ text) (n : Nat) :
    trimNuls (text ++ List.replicate n Utf8.nul) = text := by
  rw [trimNuls_append_nuls, trimNuls_eq_self_iff]
  exact ⟨fun first => clean (List.mem_of_head? first), fun last => clean (List.mem_of_getLast? last)⟩

theorem getLast?_trimNuls (text : List Char) : (trimNuls text).getLast? ≠ some Utf8.nul := by
  intro last
  have nonempty : trimNuls text ≠ [] := by
    intro empty
    simp [empty] at last
  have other := List.rdropWhile_last_not (· == Utf8.nul) (text.dropWhile (· == Utf8.nul)) nonempty
  rw [List.getLast?_eq_some_getLast nonempty, Option.some.injEq] at last
  exact other (beq_iff_eq.mpr last)

def overwrite (array bytes : List UInt8) : List UInt8 :=
  bytes.take array.length ++ List.replicate (array.length - bytes.length) 0

@[simp] theorem length_overwrite (array bytes : List UInt8) :
    (overwrite array bytes).length = array.length := by
  simp only [overwrite, List.length_append, List.length_take, List.length_replicate]
  omega

theorem overwrite_congr {array array' : List UInt8} (length : array.length = array'.length)
    (bytes : List UInt8) : overwrite array bytes = overwrite array' bytes := by
  rw [overwrite, overwrite, length]

theorem overwrite_append_zeros (bytes : List UInt8) (n : Nat) :
    overwrite (bytes ++ List.replicate n 0) bytes = bytes ++ List.replicate n 0 := by
  simp [overwrite]

def strBufAdd (array sRaw : List UInt8) : Except Failure (List UInt8) := do
  let d := trimNuls (← fromUtf8 array)
  let s := trimNuls (← fromUtf8 sRaw)
  if s <:+: d then throw (.error .EntryAlreadyExists)
  return overwrite array (Utf8.encode (d ++ ';' :: s))

def strBufRm (array sRaw : List UInt8) : Except Failure (List UInt8) := do
  let d := trimNuls (← fromUtf8 array)
  let s := trimNuls (← fromUtf8 sRaw)
  if ¬s <:+: d then throw (.error .EntryDoesntExist)
  return overwrite array (Utf8.encode (Delimited.removeAll (';' :: s) d))

theorem fromUtf8_ok {bytes : List UInt8} {text : List Char} :
    fromUtf8 bytes = .ok text ↔ bytes = Utf8.encode text := by
  rw [← Utf8.decode_iff, fromUtf8]
  cases Utf8.decode bytes <;> simp

@[simp] theorem fromUtf8_encode (text : List Char) : fromUtf8 (Utf8.encode text) = .ok text :=
  fromUtf8_ok.mpr rfl

theorem strBufAdd_ok {array sRaw region : List UInt8} :
    strBufAdd array sRaw = .ok region ↔
      ∃ d s, array = Utf8.encode d ∧ sRaw = Utf8.encode s ∧ ¬trimNuls s <:+: trimNuls d ∧
        overwrite array (Utf8.encode (trimNuls d ++ ';' :: trimNuls s)) = region := by
  simp only [← fromUtf8_ok, strBufAdd]
  cases fromUtf8 array with
  | error failure => simp
  | ok d =>
    cases fromUtf8 sRaw with
    | error failure => simp
    | ok s => by_cases present : trimNuls s <:+: trimNuls d <;> simp [present]

theorem strBufRm_ok {array sRaw region : List UInt8} :
    strBufRm array sRaw = .ok region ↔
      ∃ d s, array = Utf8.encode d ∧ sRaw = Utf8.encode s ∧ trimNuls s <:+: trimNuls d ∧
        overwrite array (Utf8.encode (Delimited.removeAll (';' :: trimNuls s) (trimNuls d))) =
          region := by
  simp only [← fromUtf8_ok, strBufRm]
  cases fromUtf8 array with
  | error failure => simp
  | ok d =>
    cases fromUtf8 sRaw with
    | error failure => simp
    | ok s => by_cases present : trimNuls s <:+: trimNuls d <;> simp [present]

theorem length_of_strBufAdd {array sRaw region : List UInt8}
    (done : strBufAdd array sRaw = .ok region) : region.length = array.length := by
  obtain ⟨_, _, _, _, _, rfl⟩ := strBufAdd_ok.mp done
  exact length_overwrite _ _

theorem length_of_strBufRm {array sRaw region : List UInt8}
    (done : strBufRm array sRaw = .ok region) : region.length = array.length := by
  obtain ⟨_, _, _, _, _, rfl⟩ := strBufRm_ok.mp done
  exact length_overwrite _ _

end RoundTable.Contract
