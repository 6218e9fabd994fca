import Mathlib.Data.List.DropRight

set_option autoImplicit false

namespace Utf8

def encode (text : List Char) : List UInt8 :=
  text.flatMap String.utf8EncodeChar

-- The character at the front. No character is longer than four bytes.
def decodeChar (bytes : List UInt8) : Option Char :=
  (bytes.take 4).toByteArray.utf8DecodeChar? 0

def decodeWith : Nat → List UInt8 → Option (List Char)
  | _, [] => some []
  | 0, _ :: _ => none
  | fuel + 1, bytes@(_ :: _) =>
    match decodeChar bytes with
    | none => none
    | some c => (decodeWith fuel (bytes.drop c.utf8Size)).map (c :: ·)

def decode (bytes : List UInt8) : Option (List Char) :=
  decodeWith bytes.length bytes

@[simp] theorem encode_nil : encode [] = [] := rfl

@[simp] theorem encode_cons (c : Char) (text : List Char) :
    encode (c :: text) = String.utf8EncodeChar c ++ encode text := rfl

@[simp] theorem encode_append (text text' : List Char) :
    encode (text ++ text') = encode text ++ encode text' := List.flatMap_append

theorem length_encode_le {text text' : List Char} (part : text.Sublist text') :
    (encode text).length ≤ (encode text').length := by
  induction part with
  | slnil => exact le_rfl
  | cons c part ih =>
    rw [encode_cons, List.length_append]
    omega
  | cons_cons c part ih =>
    rw [encode_cons, encode_cons, List.length_append, List.length_append]
    omega

theorem utf8EncodeChar_ne_nil (c : Char) : String.utf8EncodeChar c ≠ [] := by
  intro empty
  have length := String.length_utf8EncodeChar c
  have positive := c.utf8Size_pos
  simp only [empty, List.length_nil] at length
  omega

theorem decodeChar_encode (c : Char) (rest : List UInt8) :
    decodeChar (String.utf8EncodeChar c ++ rest) = some c := by
  have short : (String.utf8EncodeChar c).length ≤ 4 := by
    rw [String.length_utf8EncodeChar]
    exact c.utf8Size_le_four
  rw [decodeChar, List.take_append, List.take_of_length_le short, List.toByteArray_append]
  exact ByteArray.utf8DecodeChar?_utf8EncodeChar_append

theorem of_decodeChar {bytes : List UInt8} {c : Char} (decoded : decodeChar bytes = some c) :
    bytes = String.utf8EncodeChar c ++ bytes.drop c.utf8Size := by
  obtain ⟨rest, front⟩ := ByteArray.exists_of_utf8DecodeChar?_eq_some decoded
  have prefixed : bytes.take 4 = String.utf8EncodeChar c ++ rest.data.toList := by
    have data := congrArg (fun array => array.data.toList) front
    simpa [ByteArray.data_append] using data
  have whole : bytes = String.utf8EncodeChar c ++ (rest.data.toList ++ bytes.drop 4) := by
    rw [← List.append_assoc, ← prefixed, List.take_append_drop]
  rw [← String.length_utf8EncodeChar c, whole, List.drop_left]

theorem decodeWith_encode (text : List Char) (fuel : Nat) (enough : (encode text).length ≤ fuel) :
    decodeWith fuel (encode text) = some text := by
  induction text generalizing fuel with
  | nil => cases fuel <;> rfl
  | cons c text ih =>
    have width := String.length_utf8EncodeChar c
    have positive := c.utf8Size_pos
    rw [encode_cons, List.length_append] at enough
    cases fuel with
    | zero => omega
    | succ fuel =>
      obtain ⟨b, rest, front⟩ := List.exists_cons_of_ne_nil
        (List.append_ne_nil_of_left_ne_nil (utf8EncodeChar_ne_nil c) (encode text))
      rw [encode_cons, front, decodeWith, ← front, decodeChar_encode]
      simp only [← width, List.drop_left, ih fuel (by omega)]
      rfl

@[simp] theorem decode_encode (text : List Char) : decode (encode text) = some text :=
  decodeWith_encode text _ le_rfl

theorem of_decodeWith {fuel : Nat} {bytes : List UInt8} {text : List Char}
    (decoded : decodeWith fuel bytes = some text) : bytes = encode text := by
  induction fuel generalizing bytes text with
  | zero =>
    cases bytes with
    | nil =>
      obtain rfl := Option.some.inj decoded
      rfl
    | cons => cases decoded
  | succ fuel ih =>
    cases bytes with
    | nil =>
      obtain rfl := Option.some.inj decoded
      rfl
    | cons b bytes =>
      rw [decodeWith] at decoded
      split at decoded
      next => cases decoded
      next c front =>
        obtain ⟨rest, decodedRest, rfl⟩ := Option.map_eq_some_iff.mp decoded
        rw [of_decodeChar front, ih decodedRest, encode_cons]

theorem decode_iff {bytes : List UInt8} {text : List Char} :
    decode bytes = some text ↔ bytes = encode text :=
  ⟨of_decodeWith, fun same => same ▸ decode_encode text⟩

theorem prefix_of_encode {text text' : List Char} (fits : encode text <+: encode text') :
    text <+: text' := by
  induction text generalizing text' with
  | nil => exact List.nil_prefix
  | cons c text ih =>
    obtain ⟨rest, split⟩ := fits
    rw [encode_cons, List.append_assoc] at split
    have front : decodeChar (encode text') = some c := split ▸ decodeChar_encode c _
    cases text' with
    | nil => simp at split
    | cons c' text' =>
      rw [encode_cons, decodeChar_encode] at front
      obtain rfl := Option.some.inj front
      rw [encode_cons, List.append_cancel_left_eq] at split
      exact List.cons_prefix_cons.mpr ⟨rfl, ih ⟨rest, split⟩⟩

/-- A cut through the encoding of a text is valid exactly when it falls between two characters. -/
theorem decode_take {text : List Char} {n : Nat} (inside : n ≤ (encode text).length) :
    (decode ((encode text).take n)).isSome ↔
      ∃ before, before <+: text ∧ (encode before).length = n := by
  constructor
  · intro decoded
    obtain ⟨before, isBefore⟩ := Option.isSome_iff_exists.mp decoded
    have cut := decode_iff.mp isBefore
    refine ⟨before, prefix_of_encode (cut ▸ List.take_prefix n _), ?_⟩
    rw [← cut, List.length_take_of_le inside]
  · rintro ⟨before, ⟨rest, rfl⟩, rfl⟩
    rw [encode_append, List.take_left, decode_encode]
    rfl

def nul : Char := '\x00'

@[simp] theorem encode_nuls (n : Nat) : encode (List.replicate n nul) = List.replicate n 0 := by
  induction n with
  | zero => rfl
  | succ n ih =>
    rw [List.replicate_succ, encode_cons, ih, List.replicate_succ]
    rfl

section Lossy

def replacement : Char := '\uFFFD'

def byteOrderMark : Char := '\uFEFF'

-- The range of the second byte of a character, and the number of bytes after the first.
def lead (b : UInt8) : Option (UInt8 × UInt8 × Nat) :=
  if b < 0xC2 then none
  else if b < 0xE0 then some (0x80, 0xBF, 1)
  else if b = 0xE0 then some (0xA0, 0xBF, 2)
  else if b = 0xED then some (0x80, 0x9F, 2)
  else if b < 0xF0 then some (0x80, 0xBF, 2)
  else if b = 0xF0 then some (0x90, 0xBF, 3)
  else if b < 0xF4 then some (0x80, 0xBF, 3)
  else if b = 0xF4 then some (0x80, 0x8F, 3)
  else none

-- How many bytes one replacement stands for: a longest beginning of some character, or one byte.
def illFormed : List UInt8 → Nat
  | [] => 0
  | [_] => 1
  | first :: second :: rest =>
    match lead first with
    | none => 1
    | some (lower, upper, more) =>
      if lower ≤ second && second ≤ upper then
        2 + ((rest.take (more - 1)).takeWhile fun b => 0x80 ≤ b && b ≤ 0xBF).length
      else 1

def decodeLossyWith : Nat → List UInt8 → List Char
  | _, [] => []
  | 0, _ :: _ => []
  | fuel + 1, bytes@(_ :: _) =>
    match decodeChar bytes with
    | none => replacement :: decodeLossyWith fuel (bytes.drop (illFormed bytes))
    | some c => c :: decodeLossyWith fuel (bytes.drop c.utf8Size)

def decodeLossy (bytes : List UInt8) : List Char :=
  decodeLossyWith bytes.length bytes

-- The default text decoder of a script realm, which drops one leading byte order mark.
def textDecode (bytes : List UInt8) : List Char :=
  if encode [byteOrderMark] <+: bytes then decodeLossy (bytes.drop 3) else decodeLossy bytes

theorem decodeLossyWith_encode (text : List Char) (fuel : Nat)
    (enough : (encode text).length ≤ fuel) : decodeLossyWith fuel (encode text) = text := by
  induction text generalizing fuel with
  | nil => cases fuel <;> rfl
  | cons c text ih =>
    have width := String.length_utf8EncodeChar c
    have positive := c.utf8Size_pos
    rw [encode_cons, List.length_append] at enough
    cases fuel with
    | zero => omega
    | succ fuel =>
      obtain ⟨b, rest, front⟩ := List.exists_cons_of_ne_nil
        (List.append_ne_nil_of_left_ne_nil (utf8EncodeChar_ne_nil c) (encode text))
      rw [encode_cons, front, decodeLossyWith, ← front, decodeChar_encode]
      simp only [← width, List.drop_left, ih fuel (by omega)]

theorem decodeLossy_encode (text : List Char) : decodeLossy (encode text) = text :=
  decodeLossyWith_encode text _ le_rfl

theorem textDecode_encode {text : List Char} (unmarked : text.head? ≠ some byteOrderMark) :
    textDecode (encode text) = text := by
  rw [textDecode, if_neg, decodeLossy_encode]
  intro marked
  obtain ⟨rest, rfl⟩ := prefix_of_encode marked
  exact unmarked rfl

theorem textDecode_encode_marked (text : List Char) :
    textDecode (encode (byteOrderMark :: text)) = text := by
  have mark : encode [byteOrderMark] = [0xEF, 0xBB, 0xBF] := by decide
  have front : encode (byteOrderMark :: text) = encode [byteOrderMark] ++ encode text := by simp
  rw [textDecode, front, if_pos (List.prefix_append _ _), mark]
  exact decodeLossy_encode text

theorem count_textDecode_encode {c : Char} (other : c ≠ byteOrderMark) (text : List Char) :
    (textDecode (encode text)).count c = text.count c := by
  by_cases marked : text.head? = some byteOrderMark
  · obtain ⟨rest, rfl⟩ := List.head?_eq_some_iff.mp marked
    rw [textDecode_encode_marked, List.count_cons_of_ne (Ne.symm other)]
  · rw [textDecode_encode marked]

end Lossy

end Utf8
