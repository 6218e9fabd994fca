import RoundTable.Client.Chat

set_option autoImplicit false

/-!
# What `JSON.parse` reads

The reader takes one character at a time. Its mode says what it is in the middle of, and a stack
keeps the arrays and objects that are still open, innermost first.
-/

namespace RoundTable.Client

-- A number is kept as it is written.
inductive Json where
  | null
  | bool (value : Bool)
  | number (literal : List Char)
  | string (value : Text)
  | array (items : List Json)
  | object (fields : List (Text × Json))

namespace Json

-- A field that is written twice keeps its place and takes the second value.
def put (key : Text) (value : Json) : List (Text × Json) → List (Text × Json)
  | [] => [(key, value)]
  | field :: rest => if field.1 = key then (key, value) :: rest else field :: put key value rest

def get (key : String) (fields : List (Text × Json)) : Option Json :=
  (fields.find? fun field => field.1 = Text.ofString key).map (·.2)

-- An open array, or an open object with the key of the field that is being read.
inductive Frame where
  | array (items : List Json)
  | object (fields : List (Text × Json)) (key : Text)

inductive NumberPart where
  | minus
  | zero
  | integer
  | point
  | fraction
  | e
  | sign
  | exponent
deriving DecidableEq

def NumberPart.next : NumberPart → Char → Option NumberPart
  | .minus, c => if c = '0' then some .zero else if c.isDigit then some .integer else none
  | .zero, c => if c = '.' then some .point else if c = 'e' ∨ c = 'E' then some .e else none
  | .integer, c =>
    if c.isDigit then some .integer
    else if c = '.' then some .point
    else if c = 'e' ∨ c = 'E' then some .e else none
  | .point, c => if c.isDigit then some .fraction else none
  | .fraction, c =>
    if c.isDigit then some .fraction else if c = 'e' ∨ c = 'E' then some .e else none
  | .e, c => if c = '+' ∨ c = '-' then some .sign else if c.isDigit then some .exponent else none
  | .sign, c | .exponent, c => if c.isDigit then some .exponent else none

def NumberPart.ends : NumberPart → Bool
  | .zero | .integer | .fraction | .exponent => true
  | .minus | .point | .e | .sign => false

-- A string that is being read is a value, or the next key of an object with these fields.
inductive Owner where
  | value
  | key (fields : List (Text × Json))

-- A bracket or brace may close what has just been opened.
inductive Mode where
  | before (opened : Bool)
  | key (fields : List (Text × Json)) (opened : Bool)
  | colon (fields : List (Text × Json)) (key : Text)
  | string (owner : Owner) (text : Text)
  | escape (owner : Owner) (text : Text)
  | unicode (owner : Owner) (text : Text) (digits : List Nat)
  | literal (rest : List Char) (value : Json)
  | number (part : NumberPart) (literal : List Char)
  | after (value : Json)

structure Reader where
  mode : Mode
  open_ : List Frame

def isSpace (c : Char) : Bool :=
  c = ' ' || c = '\t' || c = '\n' || c = '\r'

def hexDigit (c : Char) : Option Nat :=
  if c.isDigit then some (c.toNat - '0'.toNat)
  else if 'a' ≤ c ∧ c ≤ 'f' then some (c.toNat - 'a'.toNat + 10)
  else if 'A' ≤ c ∧ c ≤ 'F' then some (c.toNat - 'A'.toNat + 10)
  else none

def escaped : Char → Option UInt16
  | '"' => some 0x22
  | '\\' => some 0x5C
  | '/' => some 0x2F
  | 'b' => some 0x08
  | 'f' => some 0x0C
  | 'n' => some 0x0A
  | 'r' => some 0x0D
  | 't' => some 0x09
  | _ => none

def begin (open_ : List Frame) : Char → Option Reader
  | '"' => some ⟨.string .value [], open_⟩
  | '[' => some ⟨.before true, .array [] :: open_⟩
  | '{' => some ⟨.key [] true, open_⟩
  | 'n' => some ⟨.literal ['u', 'l', 'l'] .null, open_⟩
  | 't' => some ⟨.literal ['r', 'u', 'e'] (.bool true), open_⟩
  | 'f' => some ⟨.literal ['a', 'l', 's', 'e'] (.bool false), open_⟩
  | '-' => some ⟨.number .minus ['-'], open_⟩
  | '0' => some ⟨.number .zero ['0'], open_⟩
  | c => if c.isDigit then some ⟨.number .integer [c], open_⟩ else none

def close (value : Json) : List Frame → Char → Option Reader
  | .array items :: rest, ',' => some ⟨.before false, .array (items ++ [value]) :: rest⟩
  | .array items :: rest, ']' => some ⟨.after (.array (items ++ [value])), rest⟩
  | .object fields key :: rest, ',' => some ⟨.key (put key value fields) false, rest⟩
  | .object fields key :: rest, '}' => some ⟨.after (.object (put key value fields)), rest⟩
  | open_, c => if isSpace c then some ⟨.after value, open_⟩ else none

def endString (owner : Owner) (text : Text) : Mode :=
  match owner with
  | .value => .after (.string text)
  | .key fields => .colon fields text

def Reader.step (reader : Reader) (c : Char) : Option Reader :=
  let stay (mode : Mode) : Option Reader := some { reader with mode }
  match reader.mode with
  | .before opened =>
    if isSpace c then some reader
    else
      match opened, c, reader.open_ with
      | true, ']', .array items :: rest => some ⟨.after (.array items), rest⟩
      | _, _, _ => begin reader.open_ c
  | .key fields opened =>
    if isSpace c then some reader
    else if c = '"' then stay (.string (.key fields) [])
    else if opened && c = '}' then stay (.after (.object fields))
    else none
  | .colon fields key =>
    if isSpace c then some reader
    else if c = ':' then some ⟨.before false, .object fields key :: reader.open_⟩
    else none
  | .string owner text =>
    if c = '"' then stay (endString owner text)
    else if c = '\\' then stay (.escape owner text)
    else if c < ' ' then none
    else stay (.string owner (text ++ Text.ofChar c))
  | .escape owner text =>
    if c = 'u' then stay (.unicode owner text [])
    else (escaped c).bind fun unit => stay (.string owner (text ++ [unit]))
  | .unicode owner text digits =>
    (hexDigit c).bind fun digit =>
      let digits := digits ++ [digit]
      if digits.length < 4 then stay (.unicode owner text digits)
      else stay (.string owner (text ++ [(digits.foldl (16 * · + ·) 0).toUInt16]))
  | .literal [] value => close value reader.open_ c
  | .literal (expected :: rest) value => if c = expected then stay (.literal rest value) else none
  | .number part literal =>
    match part.next c with
    | some part => stay (.number part (literal ++ [c]))
    | none => if part.ends then close (.number literal) reader.open_ c else none
  | .after value => close value reader.open_ c

def Reader.finish (reader : Reader) : Option Json :=
  match reader.mode, reader.open_ with
  | .after value, [] | .literal [] value, [] => some value
  | .number part literal, [] => if part.ends then some (.number literal) else none
  | _, _ => none

def parse (text : List Char) : Option Json :=
  (text.foldlM Reader.step ⟨.before false, []⟩).bind Reader.finish

end Json

end RoundTable.Client
