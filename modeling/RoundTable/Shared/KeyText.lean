import Mathlib.Data.List.TakeWhile
import RoundTable.Shared.PublicKey

set_option autoImplicit false

namespace Base58

def number (letters : List Char) : Nat :=
  Nat.ofDigits 58 (letters.reverse.map alphabet.idxOf)

def decode (text : List Char) : Option (List UInt8) :=
  if text.all alphabet.contains then
    some (List.replicate (text.takeWhile (· == '1')).length 0 ++
      (Nat.digits 256 (number (text.dropWhile (· == '1')))).reverse.map UInt8.ofNat)
  else none

theorem number_letters {digits : List Nat} (small : ∀ digit ∈ digits, digit < 58) :
    number (letters digits) = Nat.ofDigits 58 digits := by
  rw [number, letters, ← List.map_reverse, List.reverse_reverse, List.map_map]
  exact congrArg _ ((List.map_congr_left fun digit member =>
    idxOf_letter (small digit member)).trans (List.map_id' _))

theorem letter_mem {digit : Nat} (small : digit < 58) : letter digit ∈ alphabet := by
  have inside : digit < alphabet.length := small
  rw [letter, List.getD_eq_getElem?_getD, List.getElem?_eq_getElem inside]
  exact List.getElem_mem inside

theorem letter_idxOf {c : Char} (member : c ∈ alphabet) : letter (alphabet.idxOf c) = c := by
  rw [letter, List.getD_eq_getElem?_getD, List.getElem?_idxOf member]
  rfl

theorem bytes_eq (bytes : List UInt8) :
    List.replicate (zeros bytes) 0 ++ (Nat.digits 256 (value bytes)).reverse.map UInt8.ofNat =
      bytes := by
  induction bytes with
  | nil => simp [zeros, value]
  | cons b rest ih =>
    by_cases zero : b = 0
    · subst zero
      rw [value_cons]
      simpa [zeros, List.replicate_succ] using ih
    · have positive : b.toNat ≠ 0 := fun h => zero (UInt8.toNat_inj.mp h)
      have digits : Nat.digits 256 (value (b :: rest)) = (b :: rest).reverse.map UInt8.toNat := by
        apply Nat.digits_ofDigits 256 (by decide)
        · intro digit member
          obtain ⟨byte, -, rfl⟩ := List.mem_map.mp member
          exact byte.toNat_lt
        · intro nonempty
          simpa using positive
      have none : zeros (b :: rest) = 0 := by simp [zeros, zero]
      rw [none, digits, ← List.map_reverse, List.reverse_reverse, List.map_map]
      exact (List.map_congr_left fun byte _ => UInt8.ofNat_toNat).trans (List.map_id' _)

theorem encode_mem (bytes : List UInt8) : ∀ c ∈ encode bytes, c ∈ alphabet := by
  intro c member
  rw [encode_eq] at member
  rcases List.mem_append.mp member with one | digit
  · obtain rfl := List.eq_of_mem_replicate one
    decide
  · obtain ⟨value, isDigit, rfl⟩ := List.mem_map.mp digit
    exact letter_mem (Nat.digits_lt_base (by decide) (List.mem_reverse.mp isDigit))

theorem decode_encode (bytes : List UInt8) : decode (encode bytes) = some bytes := by
  have ones := takeWhile_encode bytes
  have rest : (encode bytes).dropWhile (· == '1') = letters (Nat.digits 58 (value bytes)) := by
    have whole := List.takeWhile_append_dropWhile (p := (· == '1')) (l := encode bytes)
    rw [ones] at whole
    exact List.append_cancel_left (whole.trans (encode_eq bytes))
  have inAlphabet : (encode bytes).all alphabet.contains = true :=
    List.all_eq_true.mpr fun c member => List.contains_iff_mem.mpr (encode_mem bytes c member)
  rw [decode, if_pos inAlphabet, ones, rest,
    number_letters fun _ => Nat.digits_lt_base (by decide), Nat.ofDigits_digits,
    List.length_replicate, bytes_eq]

theorem letters_number {text : List Char} (inAlphabet : ∀ c ∈ text, c ∈ alphabet)
    (first : text.head? ≠ some '1') : letters (Nat.digits 58 (number text)) = text := by
  have digits : Nat.digits 58 (number text) = text.reverse.map alphabet.idxOf := by
    apply Nat.digits_ofDigits 58 (by decide)
    · intro digit member
      obtain ⟨c, inText, rfl⟩ := List.mem_map.mp member
      exact List.idxOf_lt_length_of_mem (inAlphabet c (List.mem_reverse.mp inText))
    · intro nonempty zero
      obtain ⟨c, rest, rfl⟩ := List.exists_cons_of_ne_nil
        (fun empty : text = [] => nonempty (by rw [empty]; rfl))
      rw [List.getLast_map, List.getLast_reverse, List.head_cons] at zero
      have isOne := letter_idxOf (inAlphabet c List.mem_cons_self)
      rw [zero] at isOne
      exact first (congrArg some isOne.symm)
  rw [digits, letters, ← List.map_reverse, List.reverse_reverse, List.map_map]
  exact (List.map_congr_left fun c member => letter_idxOf (inAlphabet c member)).trans
    (List.map_id' _)

theorem value_digits (z n : Nat) :
    value (List.replicate z 0 ++ (Nat.digits 256 n).reverse.map UInt8.ofNat) = n := by
  have small : ∀ digit ∈ Nat.digits 256 n, (UInt8.toNat ∘ UInt8.ofNat) digit = id digit :=
    fun digit member => Nat.mod_eq_of_lt (Nat.digits_lt_base (by decide) member)
  have zeros : (List.replicate z (0 : UInt8)).map UInt8.toNat = List.replicate z 0 := by simp
  rw [value, List.reverse_append, List.reverse_replicate, ← List.map_reverse, List.reverse_reverse,
    List.map_append, List.map_map, zeros, List.map_congr_left small, List.map_id,
    Nat.ofDigits_append_replicate_zero, Nat.ofDigits_digits]

theorem zeros_digits (z n : Nat) :
    zeros (List.replicate z 0 ++ (Nat.digits 256 n).reverse.map UInt8.ofNat) = z := by
  rw [zeros, List.takeWhile_append_of_pos (by simp)]
  by_cases zero : n = 0
  · simp [zero]
  · have nonempty : Nat.digits 256 n ≠ [] := Nat.digits_ne_nil_iff_ne_zero.mpr zero
    have first : UInt8.ofNat ((Nat.digits 256 n).getLast nonempty) ≠ 0 := by
      intro same
      apply Nat.getLast_digit_ne_zero 256 zero
      have value := congrArg UInt8.toNat same
      exact (Nat.mod_eq_of_lt (Nat.digits_lt_base (by decide)
        (List.getLast_mem nonempty))).symm.trans value
    rw [← List.dropLast_append_getLast nonempty]
    simp [first]

theorem encode_of_decode {text : List Char} {bytes : List UInt8}
    (decoded : decode text = some bytes) : encode bytes = text := by
  unfold decode at decoded
  split at decoded
  next inAlphabet =>
    obtain rfl := Option.some.inj decoded
    have letter (c : Char) (member : c ∈ text) : c ∈ alphabet :=
      List.contains_iff_mem.mp (List.all_eq_true.mp inAlphabet c member)
    have ones : List.replicate (text.takeWhile (· == '1')).length '1' =
        text.takeWhile (· == '1') :=
      (List.eq_replicate_length.mpr fun c member =>
        eq_of_beq (List.mem_takeWhile_imp (p := (· == '1')) member)).symm
    have rest : letters (Nat.digits 58 (number (text.dropWhile (· == '1')))) =
        text.dropWhile (· == '1') := by
      apply letters_number
      · exact fun c member => letter c ((List.dropWhile_suffix _).subset member)
      · intro first
        have isOther := List.head?_dropWhile_not (· == '1') text
        simp [first] at isOther
    rw [encode_eq, zeros_digits, value_digits, ones, rest, List.takeWhile_append_dropWhile]
  next => cases decoded

end Base58

namespace PublicKey

-- `new PublicKey(text)`, which throws when the text is not that of 32 bytes. Texts are of letters up to
-- U+00FF, since the decoder of the script has no entry for others and goes on with `NaN`.
def ofString (text : String) : Option PublicKey :=
  (Base58.decode text.toList).bind fun bytes =>
    if length_eq : bytes.length = 32 then some ⟨bytes, length_eq⟩ else none

theorem ofString_iff {text : String} {key : PublicKey} :
    ofString text = some key ↔ text = key.toString := by
  constructor
  · intro read
    obtain ⟨bytes, decoded, sized⟩ := Option.bind_eq_some_iff.mp read
    split at sized
    next length_eq =>
      obtain rfl := Option.some.inj sized
      rw [toString, Base58.encode_of_decode decoded, String.ofList_toList]
    next => cases sized
  · rintro rfl
    rw [ofString, toString, String.toList_ofList, Base58.decode_encode]
    exact dif_pos key.length_eq

@[simp] theorem ofString_toString (key : PublicKey) : ofString key.toString = some key :=
  ofString_iff.mpr rfl

end PublicKey
