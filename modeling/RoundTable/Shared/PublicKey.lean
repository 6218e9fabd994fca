import Mathlib.Data.Nat.Digits.Lemmas

set_option autoImplicit false

@[ext]
structure PublicKey where
  bytes : List UInt8
  length_eq : bytes.length = 32
deriving DecidableEq

namespace Base58

def alphabet : List Char :=
  "123456789ABCDEFGHJKLMNPQRSTUVWXYZabcdefghijkmnopqrstuvwxyz".toList

def value (bytes : List UInt8) : Nat :=
  Nat.ofDigits 256 (bytes.reverse.map UInt8.toNat)

-- One `1` for each leading zero byte, then the base 58 digits of the value.
def encode (bytes : List UInt8) : List Char :=
  (bytes.takeWhile (· == 0)).map (fun _ => '1') ++
    (Nat.digits 58 (value bytes)).reverse.map (fun digit => alphabet.getD digit '1')

theorem value_cons (b : UInt8) (bytes : List UInt8) :
    value (b :: bytes) = value bytes + 256 ^ bytes.length * b.toNat := by
  simp [value, Nat.ofDigits_append, Nat.ofDigits_singleton]

theorem encode_ne_nil {bytes : List UInt8} (nonempty : bytes ≠ []) : encode bytes ≠ [] := by
  cases bytes with
  | nil => exact absurd rfl nonempty
  | cons b rest =>
    by_cases zero : b = 0
    · simp [encode, zero]
    · have positive : b.toNat ≠ 0 := fun h => zero (UInt8.toNat_inj.mp h)
      have valuePositive : value (b :: rest) ≠ 0 := by
        rw [value_cons]
        have : 0 < 256 ^ rest.length * b.toNat := by positivity
        omega
      simp [encode, Nat.digits_ne_nil_iff_ne_zero.mpr valuePositive]

theorem value_inj {xs ys : List UInt8} (length : xs.length = ys.length)
    (same : value xs = value ys) : xs = ys := by
  have bounded (bytes : List UInt8) : ∀ digit ∈ bytes.reverse.map UInt8.toNat, digit < 256 := by
    intro digit member
    obtain ⟨byte, -, rfl⟩ := List.mem_map.mp member
    exact byte.toNat_lt
  have digits := Nat.ofDigits_inj_of_len_eq (by decide) (by simpa using length) (bounded xs)
    (bounded ys) same
  exact List.reverse_injective (List.map_injective_iff.mpr (fun _ _ => UInt8.toNat_inj.mp) digits)

def zeros (bytes : List UInt8) : Nat :=
  (bytes.takeWhile (· == 0)).length

def letter (digit : Nat) : Char :=
  alphabet.getD digit '1'

theorem idxOf_letter {digit : Nat} (small : digit < 58) : alphabet.idxOf (letter digit) = digit := by
  have inside : digit < alphabet.length := small
  have distinct : alphabet.Nodup := by decide
  rw [letter, List.getD_eq_getElem?_getD, List.getElem?_eq_getElem inside, Option.getD_some,
    distinct.idxOf_getElem]

theorem letter_ne_one {digit : Nat} (small : digit < 58) (positive : digit ≠ 0) :
    letter digit ≠ '1' := by
  intro one
  have index := idxOf_letter small
  rw [one] at index
  exact positive (index.symm.trans (by decide))

def letters (digits : List Nat) : List Char :=
  digits.reverse.map letter

theorem letters_append (low high : List Nat) :
    letters (low ++ high) = letters high ++ letters low := by
  simp [letters]

theorem letters_inj {xs ys : List Nat} (hx : ∀ digit ∈ xs, digit < 58)
    (hy : ∀ digit ∈ ys, digit < 58) (same : letters xs = letters ys) : xs = ys := by
  have recovered {digits : List Nat} (small : ∀ digit ∈ digits, digit < 58) :
      (letters digits).map alphabet.idxOf = digits.reverse := by
    rw [letters, List.map_map]
    exact (List.map_congr_left fun digit member =>
      idxOf_letter (small digit (List.mem_reverse.mp member))).trans (List.map_id' _)
  have reversed := congrArg (List.map alphabet.idxOf) same
  rw [recovered hx, recovered hy] at reversed
  exact List.reverse_injective reversed

theorem encode_eq (bytes : List UInt8) :
    encode bytes = List.replicate (zeros bytes) '1' ++ letters (Nat.digits 58 (value bytes)) := by
  simp [encode, zeros, letters, letter, List.map_const']

theorem digits_div_pow (n k : Nat) : Nat.digits 58 (n / 58 ^ k) = (Nat.digits 58 n).drop k := by
  induction k generalizing n with
  | zero => simp
  | succ k ih =>
    rw [Nat.pow_succ', ← Nat.div_div_eq_div_mul, ih]
    cases n with
    | zero => simp
    | succ n => rw [Nat.digits_def' (by decide) (Nat.succ_pos n), List.drop_succ_cons]

def tail (n k : Nat) : List Char :=
  letters ((Nat.digits 58 n).take k)

theorem letters_digits (n k : Nat) :
    letters (Nat.digits 58 n) = letters (Nat.digits 58 (n / 58 ^ k)) ++ tail n k := by
  rw [digits_div_pow, tail, ← letters_append, List.take_append_drop]

-- The text of a number starts with the text of another exactly when that is its head.
theorem letters_prefix {n m : Nat} {rest : List Char}
    (split : letters (Nat.digits 58 n) = letters (Nat.digits 58 m) ++ rest) :
    m = n / 58 ^ rest.length ∧ rest = tail n rest.length := by
  have lengths := congrArg List.length split
  simp only [letters, List.length_map, List.length_reverse, List.length_append] at lengths
  have whole := (letters_digits n rest.length).symm.trans split
  have short : (letters (Nat.digits 58 (n / 58 ^ rest.length))).length =
      (letters (Nat.digits 58 m)).length := by
    simp only [letters, List.length_map, List.length_reverse, digits_div_pow, List.length_drop]
    omega
  obtain ⟨head, same⟩ := List.append_inj whole short
  have small (k : Nat) : ∀ digit ∈ Nat.digits 58 k, digit < 58 := fun _ =>
    Nat.digits_lt_base (by decide)
  exact ⟨(Nat.digits.injective 58 (letters_inj (small _) (small m) head)).symm, same.symm⟩

theorem takeWhile_one {n z : Nat} (positive : n ≠ 0) (rest : List Char) :
    (List.replicate z '1' ++ letters (Nat.digits 58 n) ++ rest).takeWhile (· == '1') =
      List.replicate z '1' := by
  have nonempty : Nat.digits 58 n ≠ [] := Nat.digits_ne_nil_iff_ne_zero.mpr positive
  have first := letter_ne_one (Nat.digits_lt_base (by decide) (List.getLast_mem nonempty))
    (Nat.getLast_digit_ne_zero 58 positive)
  rw [← List.dropLast_append_getLast nonempty, letters_append, List.append_assoc,
    List.takeWhile_append_of_pos (by simp)]
  simp [letters, first]

theorem takeWhile_encode (bytes : List UInt8) :
    (encode bytes).takeWhile (· == '1') = List.replicate (zeros bytes) '1' := by
  rw [encode_eq]
  by_cases zero : value bytes = 0
  · simp [zero, letters]
  · simpa using takeWhile_one (z := zeros bytes) zero []

theorem zeros_le (bytes : List UInt8) : zeros bytes ≤ bytes.length :=
  (List.takeWhile_prefix _).length_le

theorem encode_zero {bytes : List UInt8} (zero : value bytes = 0) :
    encode bytes = List.replicate (zeros bytes) '1' := by
  rw [encode_eq, zero]
  exact List.append_nil _

theorem zeros_eq_length (bytes : List UInt8) : zeros bytes = bytes.length ↔ value bytes = 0 := by
  induction bytes with
  | nil => simp [zeros, value]
  | cons b rest ih =>
    have below := zeros_le rest
    rw [value_cons]
    by_cases zero : b = 0
    · subst zero
      simpa [zeros] using ih
    · have positive : b.toNat ≠ 0 := fun h => zero (UInt8.toNat_inj.mp h)
      have some : 0 < 256 ^ rest.length * b.toNat := by positivity
      simp only [zeros, List.takeWhile_cons, beq_iff_eq, zero, if_false, List.length_nil,
        List.length_cons]
      omega

end Base58

namespace PublicKey

def small (n : UInt8) : PublicKey := ⟨List.replicate 31 0 ++ [n], by simp⟩

def toString (key : PublicKey) : String := String.ofList (Base58.encode key.bytes)

theorem toString_ne_empty (key : PublicKey) : key.toString ≠ "" := by
  have nonempty : key.bytes ≠ [] := by
    intro empty
    simpa [empty] using key.length_eq
  intro same
  apply Base58.encode_ne_nil nonempty
  simpa [toString] using congrArg String.toList same

theorem toString_inj {a b : PublicKey} (same : a.toString = b.toString) : a = b := by
  have texts : Base58.encode a.bytes = Base58.encode b.bytes := String.ofList_injective same
  have ones := congrArg (List.takeWhile (· == '1')) texts
  rw [Base58.takeWhile_encode, Base58.takeWhile_encode] at ones
  have zeros := congrArg List.length ones
  rw [List.length_replicate, List.length_replicate] at zeros
  rw [Base58.encode_eq, Base58.encode_eq, zeros, List.append_cancel_left_eq] at texts
  have values := (Base58.letters_prefix (texts.trans (List.append_nil _).symm)).1
  rw [List.length_nil, Nat.pow_zero, Nat.div_one] at values
  exact PublicKey.ext (Base58.value_inj (a.length_eq.trans b.length_eq.symm) values.symm)

/-- The bytes of `short` are the head of those of `long`: as many leading zeros, and the number that
is left when the last `k` base 58 digits are cut off. -/
structure Heads (short long : PublicKey) (k : Nat) : Prop where
  zeros : Base58.zeros short.bytes = Base58.zeros long.bytes
  value : Base58.value short.bytes = Base58.value long.bytes / 58 ^ k
  positive : Base58.value short.bytes ≠ 0

def tail (key : PublicKey) (k : Nat) : List Char :=
  Base58.tail (Base58.value key.bytes) k

theorem Heads.toString {short long : PublicKey} {k : Nat} (heads : short.Heads long k) :
    Base58.encode long.bytes = Base58.encode short.bytes ++ long.tail k := by
  rw [Base58.encode_eq, Base58.encode_eq, heads.zeros, heads.value, List.append_assoc, tail,
    ← Base58.letters_digits]

theorem heads_of_prefix {short long : PublicKey} {rest : List Char} (nonempty : rest ≠ [])
    (split : Base58.encode long.bytes = Base58.encode short.bytes ++ rest) :
    short.Heads long rest.length ∧ rest = long.tail rest.length := by
  have ones := congrArg (List.takeWhile (· == '1')) split
  have positive : Base58.value short.bytes ≠ 0 := by
    -- a key of zeros only has the longest text of leading letters
    intro zero
    have all := (Base58.zeros_eq_length short.bytes).mpr zero
    rw [Base58.takeWhile_encode, Base58.encode_zero zero, all, short.length_eq,
      List.takeWhile_append_of_pos (by simp)] at ones
    have most := Base58.zeros_le long.bytes
    rw [long.length_eq] at most
    have count := congrArg List.length ones
    simp only [List.length_replicate, List.length_append] at count
    have same : Base58.zeros long.bytes = long.bytes.length := by
      rw [long.length_eq]
      omega
    have zero' := (Base58.zeros_eq_length long.bytes).mp same
    rw [Base58.encode_zero zero, Base58.encode_zero zero', all, same, short.length_eq,
      long.length_eq, List.self_eq_append_right] at split
    exact nonempty split
  rw [Base58.takeWhile_encode, Base58.encode_eq short.bytes, Base58.takeWhile_one positive] at ones
  have zeros : Base58.zeros long.bytes = Base58.zeros short.bytes := by
    simpa using congrArg List.length ones
  rw [Base58.encode_eq, Base58.encode_eq, zeros, List.append_assoc, List.append_cancel_left_eq]
    at split
  obtain ⟨value, same⟩ := Base58.letters_prefix split
  exact ⟨⟨zeros.symm, value, positive⟩, same⟩

end PublicKey
