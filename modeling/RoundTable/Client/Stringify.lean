import RoundTable.Client.Json

set_option autoImplicit false

namespace RoundTable.Client

-- A character of a text, or a code unit that is no part of one.
inductive CodePoint where
  | char (c : Char)
  | lone (unit : UInt16)
deriving DecidableEq

def CodePoint.units : CodePoint → Text
  | .char c => Text.ofChar c
  | .lone unit => [unit]

def CodePoint.toChar : CodePoint → Option Char
  | .char c => some c
  | .lone _ => none

namespace Text

def leads (unit : UInt16) : Bool := 0xD800 ≤ unit && unit < 0xDC00

def trails (unit : UInt16) : Bool := 0xDC00 ≤ unit && unit < 0xE000

def pair (first second : UInt16) : Char :=
  Char.ofNat (0x10000 + (first.toNat - 0xD800) * 0x400 + (second.toNat - 0xDC00))

def single (unit : UInt16) : CodePoint :=
  if leads unit || trails unit then .lone unit else .char (Char.ofNat unit.toNat)

def codePoints : Text → List CodePoint
  | [] => []
  | [unit] => [single unit]
  | first :: second :: rest =>
    if leads first && trails second then .char (pair first second) :: codePoints rest
    else single first :: codePoints (second :: rest)

theorem toNat_ofNat {n : Nat} (valid : n.isValidChar) : (Char.ofNat n).toNat = n := by
  rw [Char.ofNat, dif_pos valid]
  rfl

theorem toUInt16_eq {n : Nat} (unit : UInt16) (same : n = unit.toNat) : n.toUInt16 = unit := by
  rw [same, Nat.toUInt16, UInt16.ofNat_toNat]

theorem leads_iff {unit : UInt16} : leads unit = true ↔ 0xD800 ≤ unit.toNat ∧ unit.toNat < 0xDC00 := by
  simp [leads, UInt16.le_iff_toNat_le, UInt16.lt_iff_toNat_lt]

theorem trails_iff {unit : UInt16} :
    trails unit = true ↔ 0xDC00 ≤ unit.toNat ∧ unit.toNat < 0xE000 := by
  simp [trails, UInt16.le_iff_toNat_le, UInt16.lt_iff_toNat_lt]

theorem pair_units {first second : UInt16} (isFirst : leads first = true)
    (isSecond : trails second = true) : ofChar (pair first second) = [first, second] := by
  have := leads_iff.mp isFirst
  have := trails_iff.mp isSecond
  have valid : (0x10000 + (first.toNat - 0xD800) * 0x400 + (second.toNat - 0xDC00)).isValidChar := by
    right
    omega
  rw [ofChar, pair, toNat_ofNat valid, if_neg (by omega)]
  dsimp only
  rw [toUInt16_eq first (by omega), toUInt16_eq second (by omega)]

theorem single_units (unit : UInt16) : (single unit).units = [unit] := by
  unfold single
  split
  next => rfl
  next whole =>
    have below : unit.toNat < 65536 := unit.toNat_lt
    rw [Bool.or_eq_true, leads_iff, trails_iff] at whole
    have valid : unit.toNat.isValidChar := by
      by_cases low : unit.toNat < 0xD800
      · exact .inl low
      · exact .inr (by omega)
    rw [CodePoint.units, ofChar, toNat_ofNat valid, if_pos below, toUInt16_eq unit rfl]

theorem units_codePoints (text : Text) : text.codePoints.flatMap CodePoint.units = text := by
  induction text using codePoints.induct with
  | case1 => rfl
  | case2 unit => simp [codePoints, single_units]
  | case3 first second rest isPair ih =>
    rw [codePoints, if_pos isPair, List.flatMap_cons, ih, CodePoint.units]
    obtain ⟨leads_, trails_⟩ := Bool.and_eq_true_iff.mp isPair
    rw [pair_units leads_ trails_]
    rfl
  | case4 first second rest isSingle ih =>
    rw [codePoints, if_neg isSingle, List.flatMap_cons, ih, single_units]
    rfl

theorem toNat_toUInt16 {n : Nat} (small : n < 65536) : n.toUInt16.toNat = n := by
  rw [Nat.toUInt16, UInt16.toNat_ofNat', Nat.mod_eq_of_lt small]

theorem codePoints_ofChar (c : Char) (rest : Text) :
    codePoints (ofChar c ++ rest) = .char c :: codePoints rest := by
  have valid : c.toNat.isValidChar := c.valid
  rw [ofChar]
  split
  next small =>
    have value := toNat_toUInt16 small
    have notLeading : leads c.toNat.toUInt16 = false := by
      rw [← Bool.not_eq_true, leads_iff, value]
      rintro ⟨low, high⟩
      obtain below | above := valid <;> omega
    have notTrailing : trails c.toNat.toUInt16 = false := by
      rw [← Bool.not_eq_true, trails_iff, value]
      rintro ⟨low, high⟩
      obtain below | above := valid <;> omega
    have whole : single c.toNat.toUInt16 = .char c := by
      simp [single, notLeading, notTrailing, value, Char.ofNat_toNat]
    cases rest with
    | nil => simp [codePoints, whole]
    | cons second rest => simp [codePoints, notLeading, whole]
  next large =>
    have below : c.toNat < 0x110000 := by
      obtain below | above := valid <;> omega
    have first := toNat_toUInt16 (n := 0xD800 + (c.toNat - 0x10000) / 0x400) (by omega)
    have second := toNat_toUInt16 (n := 0xDC00 + (c.toNat - 0x10000) % 0x400) (by omega)
    have leading : leads (0xD800 + (c.toNat - 0x10000) / 0x400).toUInt16 = true := by
      rw [leads_iff, first]
      omega
    have trailing : trails (0xDC00 + (c.toNat - 0x10000) % 0x400).toUInt16 = true := by
      rw [trails_iff, second]
      omega
    have paired : pair (0xD800 + (c.toNat - 0x10000) / 0x400).toUInt16
        (0xDC00 + (c.toNat - 0x10000) % 0x400).toUInt16 = c := by
      have value : 0x10000 + (0xD800 + (c.toNat - 0x10000) / 0x400 - 0xD800) * 0x400 +
          (0xDC00 + (c.toNat - 0x10000) % 0x400 - 0xDC00) = c.toNat := by omega
      rw [pair, first, second, value, Char.ofNat_toNat]
    simp only [List.cons_append, List.nil_append, codePoints, leading, trailing, Bool.and_self,
      if_true, paired]

theorem codePoints_ofString (s : String) : (ofString s).codePoints = s.toList.map .char := by
  rw [ofString]
  induction s.toList with
  | nil => rfl
  | cons c cs ih => rw [List.flatMap_cons, codePoints_ofChar, ih, List.map_cons]

theorem ofString_inj {s t : String} (same : ofString s = ofString t) : s = t := by
  have points := congrArg codePoints same
  rw [codePoints_ofString, codePoints_ofString] at points
  exact String.toList_inj.mp (List.map_injective_iff.mpr (fun _ _ => CodePoint.char.inj) points)

-- The string of a text without lone units.
def toString? (text : Text) : Option String :=
  (text.codePoints.mapM CodePoint.toChar).map String.ofList

theorem toString?_ofString (s : String) : (ofString s).toString? = some s := by
  have chars (cs : List Char) : (cs.map CodePoint.char).mapM CodePoint.toChar = some cs := by
    induction cs with
    | nil => rfl
    | cons c cs ih => simp [CodePoint.toChar, ih]
  rw [toString?, codePoints_ofString, chars, Option.map_some, String.ofList_toList]

end Text

namespace Json

def hexChar (digit : Nat) : Char := "0123456789abcdef".toList.getD digit '0'

def unicodeEscape (unit : UInt16) : List Char :=
  let n := unit.toNat
  ['\\', 'u', hexChar (n / 4096), hexChar (n / 256 % 16), hexChar (n / 16 % 16), hexChar (n % 16)]

def shortEscape : Char → Option Char
  | '\x08' => some 'b'
  | '\t' => some 't'
  | '\n' => some 'n'
  | '\x0C' => some 'f'
  | '\r' => some 'r'
  | '"' => some '"'
  | '\\' => some '\\'
  | _ => none

def quoted : CodePoint → List Char
  | .lone unit => unicodeEscape unit
  | .char c =>
    match shortEscape c with
    | some letter => ['\\', letter]
    | none => if c < ' ' then unicodeEscape c.toNat.toUInt16 else [c]

def quote (text : Text) : List Char :=
  '"' :: text.codePoints.flatMap quoted ++ ['"']

section Strings

variable (owner : Owner) (text : Text) (open_ : List Frame)

theorem hexDigit_hexChar : ∀ digit < 16, hexDigit (hexChar digit) = some digit := by decide

theorem read_unicodeEscape (unit : UInt16) :
    (unicodeEscape unit).foldlM Reader.step ⟨.string owner text, open_⟩ =
      some ⟨.string owner (text ++ [unit]), open_⟩ := by
  have below : unit.toNat < 65536 := unit.toNat_lt
  simp only [unicodeEscape, List.foldlM_cons, List.foldlM_nil, Reader.step,
    hexDigit_hexChar (unit.toNat / 4096) (by omega),
    hexDigit_hexChar (unit.toNat / 256 % 16) (by omega),
    hexDigit_hexChar (unit.toNat / 16 % 16) (by omega),
    hexDigit_hexChar (unit.toNat % 16) (by omega)]
  have value : (16 * (16 * (16 * (16 * 0 + unit.toNat / 4096) + unit.toNat / 256 % 16) +
      unit.toNat / 16 % 16) + unit.toNat % 16).toUInt16 = unit := Text.toUInt16_eq unit (by omega)
  simpa using value

theorem shortEscape_some {c letter : Char} (short : shortEscape c = some letter) :
    letter ≠ 'u' ∧ escaped letter = some c.toNat.toUInt16 ∧ c.toNat < 0x10000 := by
  unfold shortEscape at short
  split at short
  case h_8 => cases short
  all_goals
    obtain rfl := Option.some.inj short
    decide

theorem read_quoted (point : CodePoint) :
    (quoted point).foldlM Reader.step ⟨.string owner text, open_⟩ =
      some ⟨.string owner (text ++ point.units), open_⟩ := by
  cases point with
  | lone unit => exact read_unicodeEscape owner text open_ unit
  | char c =>
    rw [quoted, CodePoint.units, Text.ofChar]
    split
    next letter short =>
      obtain ⟨notUnicode, escapes, below⟩ := shortEscape_some short
      simp [Reader.step, notUnicode, escapes, below]
    next plain =>
      split
      next control =>
        have below : c.toNat < 0x10000 :=
          (UInt32.lt_iff_toNat_lt.mp control).trans (by decide)
        rw [if_pos below]
        exact read_unicodeEscape owner text open_ _
      next visible =>
        have notQuote : c ≠ '"' := by rintro rfl; cases plain
        have notEscape : c ≠ '\\' := by rintro rfl; cases plain
        simp [Reader.step, notQuote, notEscape, visible, Text.ofChar]

theorem read_points (points : List CodePoint) :
    (points.flatMap quoted).foldlM Reader.step ⟨.string owner text, open_⟩ =
      some ⟨.string owner (text ++ points.flatMap CodePoint.units), open_⟩ := by
  induction points generalizing text with
  | nil => simp
  | cons point points ih =>
    rw [List.flatMap_cons, List.foldlM_append, read_quoted]
    simp [ih]

theorem read_quote (text : Text) (mode : Mode)
    (begins : Reader.step ⟨mode, open_⟩ '"' = some ⟨.string owner [], open_⟩) :
    (quote text).foldlM Reader.step ⟨mode, open_⟩ = some ⟨endString owner text, open_⟩ := by
  rw [quote, List.cons_append, List.foldlM_cons, begins]
  simp [read_points, Text.units_codePoints, Reader.step]

end Strings

mutual

def stringify : Json → List Char
  | .null => ['n', 'u', 'l', 'l']
  | .bool true => ['t', 'r', 'u', 'e']
  | .bool false => ['f', 'a', 'l', 's', 'e']
  | .number literal => literal
  | .string text => quote text
  | .array items => '[' :: stringifyItems items
  | .object fields => '{' :: stringifyFields fields

def stringifyItems : List Json → List Char
  | [] => [']']
  | item :: items => item.stringify ++ stringifyMoreItems items

def stringifyMoreItems : List Json → List Char
  | [] => [']']
  | item :: items => ',' :: (item.stringify ++ stringifyMoreItems items)

def stringifyFields : List (Text × Json) → List Char
  | [] => ['}']
  | field :: fields => stringifyField field ++ stringifyMoreFields fields

def stringifyMoreFields : List (Text × Json) → List Char
  | [] => ['}']
  | field :: fields => ',' :: (stringifyField field ++ stringifyMoreFields fields)

def stringifyField : Text × Json → List Char
  | (key, value) => quote key ++ ':' :: value.stringify

end

def NumberPart.start (c : Char) : Option NumberPart :=
  if c = '-' then some .minus
  else if c = '0' then some .zero
  else if c.isDigit then some .integer else none

def NumberPart.reads : List Char → Option NumberPart
  | [] => none
  | c :: rest => (start c).bind fun part => rest.foldlM next part

def IsNumber (literal : List Char) : Prop :=
  ∃ part, NumberPart.reads literal = some part ∧ part.ends = true

/-- Numbers are written as numbers are, and no object has two fields of one name. -/
inductive Valid : Json → Prop where
  | null : Valid .null
  | bool (value : Bool) : Valid (.bool value)
  | number (literal : List Char) (isNumber : IsNumber literal) : Valid (.number literal)
  | string (text : Text) : Valid (.string text)
  | array (items : List Json) (all : ∀ item ∈ items, Valid item) : Valid (.array items)
  | object (fields : List (Text × Json)) (distinct : (fields.map (·.1)).Nodup)
      (all : ∀ field ∈ fields, Valid field.2) : Valid (.object fields)

/-- The reader has a whole value, which the next character may end. -/
inductive Reader.Holds (value : Json) (open_ : List Frame) : Reader → Prop where
  | after : Holds value open_ ⟨.after value, open_⟩
  | literal : Holds value open_ ⟨.literal [] value, open_⟩
  | number (part : NumberPart) (literal : List Char) (ends : part.ends = true)
      (isValue : value = .number literal) : Holds value open_ ⟨.number part literal, open_⟩

section Values

variable {value : Json} {open_ : List Frame} {reader : Reader}

theorem Reader.Holds.step (holds : reader.Holds value open_) {c : Char}
    (ends : c = ',' ∨ c = ']' ∨ c = '}') : reader.step c = close value open_ c := by
  cases holds with
  | after | literal => rfl
  | number part literal isWhole isValue =>
    subst isValue
    have stops : part.next c = none := by
      obtain rfl | rfl | rfl := ends <;> cases part <;> rfl
    simp [Reader.step, stops, isWhole]

theorem Reader.Holds.finish (holds : reader.Holds value []) : reader.finish = some value := by
  cases holds with
  | after | literal => rfl
  | number part literal isWhole isValue => simp [Reader.finish, isWhole, isValue]

theorem before_step (opened : Bool) {c : Char} (visible : isSpace c = false) (other : c ≠ ']') :
    Reader.step ⟨.before opened, open_⟩ c = begin open_ c := by
  simp only [Reader.step, visible, Bool.false_eq_true, if_false]
  split
  next => exact absurd rfl other
  next => rfl

theorem begin_number (open_ : List Frame) {c : Char} {part : NumberPart}
    (starts : NumberPart.start c = some part) :
    isSpace c = false ∧ c ≠ ']' ∧ begin open_ c = some ⟨.number part [c], open_⟩ := by
  unfold NumberPart.start at starts
  split_ifs at starts with minus zero digit <;> obtain rfl := Option.some.inj starts
  · subst minus
    exact ⟨rfl, by decide, rfl⟩
  · subst zero
    exact ⟨rfl, by decide, rfl⟩
  · have other (c' : Char) (notDigit : c'.isDigit = false) : c ≠ c' := by
      rintro rfl
      rw [notDigit] at digit
      cases digit
    refine ⟨?_, other ']' rfl, ?_⟩
    · simp [isSpace, other ' ' rfl, other '\t' rfl, other '\n' rfl, other '\r' rfl]
    · unfold begin
      split
      case h_9 => rw [if_pos digit]
      case h_8 => exact absurd rfl zero
      case h_7 => exact absurd rfl minus
      all_goals cases digit

theorem read_number_rest {rest : List Char} {part part' : NumberPart} (literal : List Char)
    (reads : rest.foldlM NumberPart.next part = some part') :
    rest.foldlM Reader.step ⟨.number part literal, open_⟩ =
      some ⟨.number part' (literal ++ rest), open_⟩ := by
  induction rest generalizing part literal with
  | nil =>
    obtain rfl := Option.some.inj reads
    rw [List.append_nil]
    rfl
  | cons c rest ih =>
    rw [List.foldlM_cons] at reads ⊢
    obtain ⟨middle, next, reads⟩ := Option.bind_eq_some_iff.mp reads
    have taken : Reader.step ⟨.number part literal, open_⟩ c =
        some ⟨.number middle (literal ++ [c]), open_⟩ := by
      simp [Reader.step, next]
    rw [taken]
    simpa using ih (literal ++ [c]) reads

theorem read_number (opened : Bool) {literal : List Char} {part : NumberPart}
    (reads : NumberPart.reads literal = some part) :
    literal.foldlM Reader.step ⟨.before opened, open_⟩ = some ⟨.number part literal, open_⟩ := by
  cases literal with
  | nil => cases reads
  | cons c rest =>
    obtain ⟨first, starts, reads⟩ := Option.bind_eq_some_iff.mp reads
    obtain ⟨visible, other, begins⟩ := begin_number open_ starts
    rw [List.foldlM_cons, before_step opened visible other, begins]
    exact read_number_rest [c] reads

theorem put_of_notMem {key : Text} {fields : List (Text × Json)} (new : key ∉ fields.map (·.1))
    (value : Json) : put key value fields = fields ++ [(key, value)] := by
  induction fields with
  | nil => rfl
  | cons field fields ih =>
    simp only [List.map_cons, List.mem_cons, not_or] at new
    rw [put, if_neg (Ne.symm new.1), ih new.2, List.cons_append]

theorem put_of_distinct {done fields : List (Text × Json)} {field : Text × Json}
    (distinct : ((done ++ field :: fields).map (·.1)).Nodup) :
    put field.1 field.2 done = done ++ [field] := by
  apply put_of_notMem
  rw [List.map_append, List.nodup_append] at distinct
  exact fun member => distinct.2.2 _ member _ (by simp) rfl

def Readable (value : Json) : Prop :=
  ∀ opened open_, ∃ reader,
    value.stringify.foldlM Reader.step ⟨.before opened, open_⟩ = some reader ∧
      reader.Holds value open_

theorem read_more_items {item : Json} {items done : List Json}
    (readable : ∀ item ∈ items, Readable item)
    (holds : reader.Holds item (.array done :: open_)) :
    (stringifyMoreItems items).foldlM Reader.step reader =
      some ⟨.after (.array (done ++ item :: items)), open_⟩ := by
  induction items generalizing reader item done with
  | nil =>
    rw [stringifyMoreItems, List.foldlM_cons, holds.step (.inr (.inl rfl))]
    rfl
  | cons next items ih =>
    obtain ⟨reader', read, holds'⟩ :=
      readable next List.mem_cons_self false (.array (done ++ [item]) :: open_)
    rw [stringifyMoreItems, List.foldlM_cons, holds.step (.inl rfl)]
    change (next.stringify ++ stringifyMoreItems items).foldlM Reader.step
      ⟨.before false, .array (done ++ [item]) :: open_⟩ = _
    rw [List.foldlM_append, read]
    have rest := ih (fun item member => readable item (List.mem_cons_of_mem _ member)) holds'
    simpa using rest

theorem read_field {field : Text × Json} (readable : Readable field.2) (opened : Bool)
    (done : List (Text × Json)) (open_ : List Frame) :
    ∃ reader, (stringifyField field).foldlM Reader.step ⟨.key done opened, open_⟩ = some reader ∧
      reader.Holds field.2 (.object done field.1 :: open_) := by
  obtain ⟨reader, read, holds⟩ := readable false (.object done field.1 :: open_)
  refine ⟨reader, ?_, holds⟩
  rw [stringifyField, List.foldlM_append, read_quote (.key done) open_ field.1 _ rfl]
  exact read

theorem read_more_fields {field : Text × Json} {fields done : List (Text × Json)}
    (distinct : ((done ++ field :: fields).map (·.1)).Nodup)
    (readable : ∀ field ∈ fields, Readable field.2)
    (holds : reader.Holds field.2 (.object done field.1 :: open_)) :
    (stringifyMoreFields fields).foldlM Reader.step reader =
      some ⟨.after (.object (done ++ field :: fields)), open_⟩ := by
  induction fields generalizing reader field done with
  | nil =>
    rw [stringifyMoreFields, List.foldlM_cons, holds.step (.inr (.inr rfl))]
    simp [close, put_of_distinct distinct]
  | cons next fields ih =>
    obtain ⟨reader', read, holds'⟩ := read_field (readable next List.mem_cons_self) false
      (done ++ [field]) open_
    rw [stringifyMoreFields, List.foldlM_cons, holds.step (.inl rfl)]
    change (stringifyField next ++ stringifyMoreFields fields).foldlM Reader.step
      ⟨.key (put field.1 field.2 done) false, open_⟩ = _
    rw [put_of_distinct distinct, List.foldlM_append, read]
    have rest := ih (by simpa using distinct)
      (fun field member => readable field (List.mem_cons_of_mem _ member)) holds'
    simpa using rest

theorem read_stringify (valid : Valid value) (opened : Bool) (open_ : List Frame) :
    ∃ reader, value.stringify.foldlM Reader.step ⟨.before opened, open_⟩ = some reader ∧
      reader.Holds value open_ := by
  induction valid generalizing opened open_ with
  | null =>
    refine ⟨_, ?_, .literal⟩
    rw [stringify, List.foldlM_cons, before_step opened rfl (by decide)]
    rfl
  | bool value =>
    refine ⟨_, ?_, .literal⟩
    cases value <;>
    · rw [stringify, List.foldlM_cons, before_step opened rfl (by decide)]
      rfl
  | number literal isNumber =>
    obtain ⟨part, reads, ends⟩ := isNumber
    exact ⟨_, read_number opened reads, .number part literal ends rfl⟩
  | string text =>
    exact ⟨_, read_quote .value open_ text _ (before_step opened rfl (by decide)), .after⟩
  | array items all ih =>
    refine ⟨_, ?_, .after⟩
    rw [stringify, List.foldlM_cons, before_step opened rfl (by decide)]
    change (stringifyItems items).foldlM Reader.step ⟨.before true, .array [] :: open_⟩ = _
    cases items with
    | nil => rfl
    | cons item items =>
      obtain ⟨reader, read, holds⟩ := ih item List.mem_cons_self true (.array [] :: open_)
      rw [stringifyItems, List.foldlM_append, read]
      exact read_more_items (fun item member => ih item (List.mem_cons_of_mem _ member)) holds
  | object fields distinct all ih =>
    refine ⟨_, ?_, .after⟩
    rw [stringify, List.foldlM_cons, before_step opened rfl (by decide)]
    change (stringifyFields fields).foldlM Reader.step ⟨.key [] true, open_⟩ = _
    cases fields with
    | nil => rfl
    | cons field fields =>
      obtain ⟨reader, read, holds⟩ := read_field (ih field List.mem_cons_self) true [] open_
      rw [stringifyFields, List.foldlM_append, read]
      exact read_more_fields distinct (fun field member => ih field (List.mem_cons_of_mem _ member))
        holds

end Values

/-- `JSON.parse` reads back what `JSON.stringify` has written. -/
theorem parse_stringify {value : Json} (valid : Valid value) : parse value.stringify = some value := by
  obtain ⟨reader, read, holds⟩ := read_stringify valid false []
  rw [parse, read]
  exact holds.finish

section WholeNumbers

def digit (n : Nat) : Char := Char.ofNat (48 + n)

theorem digit_facts : ∀ n < 10, (digit n).toNat - 48 = n ∧ (digit n).isDigit = true ∧
    digit n ≠ '-' ∧ (digit n = '0' ↔ n = 0) := by decide

def natLiteral (n : Nat) : List Char :=
  if n = 0 then ['0'] else (Nat.digits 10 n).reverse.map digit

def natOfLiteral (literal : List Char) : Nat :=
  Nat.ofDigits 10 (literal.reverse.map fun c => c.toNat - 48)

theorem natOfLiteral_natLiteral (n : Nat) : natOfLiteral (natLiteral n) = n := by
  unfold natLiteral natOfLiteral
  split
  next zero => rw [zero]; rfl
  next =>
    have small : ∀ d ∈ Nat.digits 10 n, ((fun c => c.toNat - 48) ∘ digit) d = id d := fun d member =>
      (digit_facts d (Nat.digits_lt_base (by decide) member)).1
    rw [← List.map_reverse, List.reverse_reverse, List.map_map, List.map_congr_left small,
      List.map_id, Nat.ofDigits_digits]

theorem reads_digits {digits : List Nat} (small : ∀ d ∈ digits, d < 10) :
    (digits.map digit).foldlM NumberPart.next .integer = some .integer := by
  induction digits with
  | nil => rfl
  | cons d digits ih =>
    have isDigit := (digit_facts d (small d List.mem_cons_self)).2.1
    rw [List.map_cons, List.foldlM_cons, NumberPart.next, if_pos isDigit]
    exact ih fun d member => small d (List.mem_cons_of_mem _ member)

theorem natLiteral_cases (n : Nat) : natLiteral n = ['0'] ∨
    ∃ (d : Nat) (digits : List Nat), natLiteral n = digit d :: digits.map digit ∧ d < 10 ∧ d ≠ 0 ∧
      ∀ d ∈ digits, d < 10 := by
  unfold natLiteral
  split
  next => exact .inl rfl
  next positive =>
    have nonempty : Nat.digits 10 n ≠ [] := Nat.digits_ne_nil_iff_ne_zero.mpr positive
    have small : ∀ d ∈ Nat.digits 10 n, d < 10 := fun d => Nat.digits_lt_base (by decide)
    refine .inr ⟨(Nat.digits 10 n).getLast nonempty, (Nat.digits 10 n).dropLast.reverse, ?_,
      small _ (List.getLast_mem nonempty), Nat.getLast_digit_ne_zero 10 positive, fun d member =>
        small d (List.mem_of_mem_dropLast (List.mem_reverse.mp member))⟩
    conv_lhs => rw [← List.dropLast_append_getLast nonempty]
    simp

def intLiteral : Int → List Char
  | .ofNat n => natLiteral n
  | .negSucc n => '-' :: natLiteral (n + 1)

def intOfLiteral : List Char → Int
  | '-' :: literal => -(natOfLiteral literal : Int)
  | literal => natOfLiteral literal

theorem intOfLiteral_intLiteral (n : Int) : intOfLiteral (intLiteral n) = n := by
  cases n with
  | ofNat n =>
    have notMinus : ∀ rest, natLiteral n ≠ '-' :: rest := by
      intro rest same
      rcases natLiteral_cases n with zero | ⟨d, digits, literal, small, -⟩
      · rw [zero] at same
        cases same
      · rw [literal] at same
        exact (digit_facts d small).2.2.1 (List.cons.inj same).1
    rw [intLiteral, intOfLiteral, natOfLiteral_natLiteral]
    · rfl
    · exact notMinus
  | negSucc n =>
    rw [intLiteral, intOfLiteral, natOfLiteral_natLiteral]
    rfl

theorem natLiteral_reads (n : Nat) :
    ∃ (c : Char) (rest : List Char) (part : NumberPart), natLiteral n = c :: rest ∧
      NumberPart.start c = some part ∧ NumberPart.next .minus c = some part ∧
        rest.foldlM NumberPart.next part = some part ∧ part.ends = true := by
  rcases natLiteral_cases n with zero | ⟨d, digits, literal, small, positive, rest⟩
  · exact ⟨'0', [], .zero, zero, rfl, rfl, rfl, rfl⟩
  · obtain ⟨-, isDigit, notMinus, isZero⟩ := digit_facts d small
    have notZero : digit d ≠ '0' := fun zero => positive (isZero.mp zero)
    refine ⟨digit d, digits.map digit, .integer, literal, ?_, ?_, reads_digits rest, rfl⟩
    · simp [NumberPart.start, isDigit, notMinus, notZero]
    · simp [NumberPart.next, isDigit, notZero]

theorem intLiteral_isNumber (n : Int) : IsNumber (intLiteral n) := by
  cases n with
  | ofNat n =>
    obtain ⟨c, rest, part, literal, starts, -, reads, ends⟩ := natLiteral_reads n
    refine ⟨part, ?_, ends⟩
    rw [intLiteral, literal, NumberPart.reads, starts]
    exact reads
  | negSucc n =>
    obtain ⟨c, rest, part, literal, -, next, reads, ends⟩ := natLiteral_reads (n + 1)
    refine ⟨part, ?_, ends⟩
    rw [intLiteral, literal]
    change ((c :: rest).foldlM NumberPart.next .minus) = _
    rw [List.foldlM_cons, next]
    exact reads

end WholeNumbers

end Json

end RoundTable.Client
