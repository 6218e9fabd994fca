import RoundTable.Client.ChatLog
import RoundTable.Client.Stringify
import RoundTable.Matcher.Manager

set_option autoImplicit false

namespace RoundTable.Client

namespace Text

theorem ofString_eq_iff {s t : String} : ofString s = ofString t ↔ s = t :=
  ⟨ofString_inj, congrArg _⟩

end Text

namespace Json

-- An object literal that is stringified. A field that is `undefined` is left out.
def record (fields : List (String × Option Json)) : Json :=
  .object (fields.filterMap fun field => field.2.map fun value => (Text.ofString field.1, value))

theorem record_valid {fields : List (String × Option Json)}
    (distinct : (fields.map (·.1)).Nodup)
    (all : ∀ field ∈ fields, ∀ value, field.2 = some value → Valid value) :
    Valid (record fields) := by
  have names : ((fields.map (·.1)).map Text.ofString).Nodup :=
    distinct.map fun _ _ => Text.ofString_inj
  refine .object _ (names.sublist ?_) fun field member => ?_
  · clear distinct all names
    induction fields with
    | nil => exact .slnil
    | cons field fields ih =>
      cases written : field.2 with
      | none => simpa [written] using ih.cons (Text.ofString field.1)
      | some value => simpa [written] using ih.cons_cons (Text.ofString field.1)
  · obtain ⟨field, isField, written⟩ := List.mem_filterMap.mp member
    obtain ⟨value, isValue, rfl⟩ := Option.map_eq_some_iff.mp written
    exact all field isField value isValue

def ofKey (key : PublicKey) : Json := .string (Text.ofString key.toString)

-- The properties of a parsed message. Nothing can be read of `null`, and the other values that are
-- no objects have none of the properties that the readers look for.
def properties : Json → Option (List (Text × Json))
  | .null => none
  | .object fields => some fields
  | _ => some []

def encoded (json : Json) : List UInt8 := Utf8.encode json.stringify

def decoded (data : List UInt8) : Option Json := parse (Utf8.textDecode data)

theorem decoded_encoded {fields : List (Text × Json)} (valid : Valid (.object fields)) :
    decoded (encoded (.object fields)) = some (.object fields) := by
  have unmarked : (stringify (.object fields)).head? ≠ some Utf8.byteOrderMark := by
    rw [stringify, List.head?_cons]
    decide
  rw [decoded, encoded, Utf8.textDecode_encode unmarked, parse_stringify valid]

end Json

def ChatMessage.serialise (msg : ChatMessage) : Json :=
  .record [("user", some (.string msg.user)), ("msg", some (.string msg.msg)),
    ("time", some (.string msg.time))]

def ChatMessage.encoded (msg : ChatMessage) : List UInt8 := msg.serialise.encoded

theorem parseChatMessage_encoded (msg : ChatMessage) :
    parseChatMessage msg.encoded = some (.message msg) := by
  have valid : msg.serialise.Valid := Json.record_valid (by simp) (by simp [Json.Valid.string])
  have read : Json.decoded msg.encoded = some msg.serialise := Json.decoded_encoded valid
  have message : msg.serialise.chatMessage = some msg := by
    simp [ChatMessage.serialise, Json.record, Json.chatMessage, Json.get, Text.ofString_eq_iff]
  rw [Json.decoded] at read
  simp only [parseChatMessage, read, Option.map_some, Json.parsed, message]

structure PresenceMessage where
  user : PublicKey

def PresenceMessage.encoded (msg : PresenceMessage) : List UInt8 :=
  (Json.record [("user", some (.ofKey msg.user))]).encoded

-- `JSON.parse(..).user.toString()`, where `toString` is what the value of a user that is no string
-- does.
def parsePresenceMessage (toString : Json → Option String) (data : List UInt8) : Option String := do
  let json ← Json.decoded data
  let msg ← json.properties
  match ← Json.get "user" msg with
  | .string text => (text.toString?).or (toString (.string text))
  | .null => none
  | value => toString value

theorem parsePresenceMessage_encoded (toString : Json → Option String) (msg : PresenceMessage) :
    parsePresenceMessage toString msg.encoded = some msg.user.toString := by
  have valid : (Json.record [("user", some (.ofKey msg.user))]).Valid :=
    Json.record_valid (by simp) (by simp [Json.ofKey, Json.Valid.string])
  rw [parsePresenceMessage, PresenceMessage.encoded, Json.record, Json.decoded_encoded valid]
  simp [Json.properties, Json.get, Json.ofKey, Text.toString?_ofString]

end RoundTable.Client

namespace RoundTable.Matcher

open Client (Json Text)

/-- How a counter is written and read. Counters are finite numbers other than negative zero: `NaN` and
the infinities are written as `null`, and negative zero as zero. -/
structure CounterFormat (Counter : Type) where
  write : Counter → Json
  read : Option Json → Counter
  valid : ∀ counter, (write counter).Valid
  read_write : ∀ counter, read (some (write counter)) = counter

def CounterFormat.int : CounterFormat Int where
  write n := .number (Json.intLiteral n)
  read
    | some (.number literal) => Json.intOfLiteral literal
    | _ => 0
  valid n := .number _ (Json.intLiteral_isNumber n)
  read_write := Json.intOfLiteral_intLiteral

/-- The key of `new PublicKey(value)`, which reads the text of a key as the key, and the text of a
value that is used as the key of a map. -/
structure Foreign where
  key : Json → Option PublicKey
  text : Json → String
  key_ofKey : ∀ publicKey, key (.ofKey publicKey) = some publicKey

namespace Foreign

variable (foreign : Foreign)

def readKey : Option Json → Option PublicKey
  | some .null | none => none
  | some value => foreign.key value

def readText : Option Json → String
  | some (.string text) => text.toString?.getD (foreign.text (.string text))
  | some value => foreign.text value
  | none => "undefined"

def readMatch : Option Json → MatchField
  | some (.string text) =>
    match text.toString? with
    | some match_ => .string match_
    | none => .other (foreign.text (.string text))
  | some value => .other (foreign.text value)
  | none => .other "undefined"

@[simp] theorem readKey_ofKey (key : PublicKey) : foreign.readKey (some (.ofKey key)) = some key :=
  foreign.key_ofKey key

@[simp] theorem readText_ofString (s : String) :
    foreign.readText (some (.string (Text.ofString s))) = s := by
  simp [readText, Text.toString?_ofString]

@[simp] theorem readMatch_ofString (s : String) :
    foreign.readMatch (some (.string (Text.ofString s))) = .string s := by
  simp [readMatch, Text.toString?_ofString]

end Foreign

inductive MatchChannel where
  | advertise
  | unadvertise
  | claim
  | ack
deriving DecidableEq

variable {Counter : Type}

def MatchField.serialise : MatchField → Option Json
  | .string value => some (.string (Text.ofString value))
  | .other _ => none

section Serialise

variable (format : CounterFormat Counter)

def MatchAdvertiseMessage.serialise (msg : MatchAdvertiseMessage Counter) : Json :=
  .record [("advertiser", some (.ofKey msg.advertiser)), ("match", msg.match_.serialise),
    ("counter", some (format.write msg.counter))]

def MatchUnadvertiseMessage.serialise (msg : MatchUnadvertiseMessage) : Json :=
  .record [("matchId", some (.string (Text.ofString msg.matchId)))]

def MatchClaimMessage.serialise (msg : MatchClaimMessage Counter) : Json :=
  .record [("matchId", some (.string (Text.ofString msg.matchId))), ("user", some (.ofKey msg.user)),
    ("counter", some (format.write msg.counter))]

def MatchAckMessage.serialise (msg : MatchAckMessage) : Json :=
  .record [("matchId", some (.string (Text.ofString msg.matchId))), ("user", some (.ofKey msg.user))]

def Message.channel : Message Counter → MatchChannel
  | .advertise _ => .advertise
  | .unadvertise _ => .unadvertise
  | .claim _ => .claim
  | .ack _ => .ack

def Message.serialise : Message Counter → Json
  | .advertise msg => msg.serialise format
  | .unadvertise msg => msg.serialise
  | .claim msg => msg.serialise format
  | .ack msg => msg.serialise

def Message.encoded (msg : Message Counter) : List UInt8 := (msg.serialise format).encoded

variable (foreign : Foreign)

def MatchAdvertiseMessage.deserialise (msg : List (Text × Json)) :
    Option (MatchAdvertiseMessage Counter) := do
  let advertiser ← foreign.readKey (Json.get "advertiser" msg)
  return ⟨advertiser, foreign.readMatch (Json.get "match" msg), format.read (Json.get "counter" msg)⟩

def MatchUnadvertiseMessage.deserialise (msg : List (Text × Json)) : MatchUnadvertiseMessage :=
  ⟨foreign.readText (Json.get "matchId" msg)⟩

def MatchClaimMessage.deserialise (msg : List (Text × Json)) : Option (MatchClaimMessage Counter) := do
  let user ← foreign.readKey (Json.get "user" msg)
  return ⟨foreign.readText (Json.get "matchId" msg), user, format.read (Json.get "counter" msg)⟩

def MatchAckMessage.deserialise (msg : List (Text × Json)) : Option MatchAckMessage := do
  let user ← foreign.readKey (Json.get "user" msg)
  return ⟨foreign.readText (Json.get "matchId" msg), user⟩

def Message.deserialise (msg : List (Text × Json)) : MatchChannel → Option (Message Counter)
  | .advertise => (MatchAdvertiseMessage.deserialise format foreign msg).map .advertise
  | .unadvertise => some (.unadvertise (MatchUnadvertiseMessage.deserialise foreign msg))
  | .claim => (MatchClaimMessage.deserialise format foreign msg).map .claim
  | .ack => (MatchAckMessage.deserialise foreign msg).map .ack

-- What a `_handle` method makes of the bytes it is given, if it does not throw.
def Message.decoded (channel : MatchChannel) (data : List UInt8) : Option (Message Counter) := do
  let json ← Json.decoded data
  let msg ← json.properties
  Message.deserialise format foreign msg channel

end Serialise

def Message.Sendable : Message Counter → Prop
  | .advertise msg => ∀ text, msg.match_ = .other text → text = "undefined"
  | _ => True

section RoundTrip

variable (format : CounterFormat Counter) (foreign : Foreign)

theorem Message.serialise_valid (msg : Message Counter) : (msg.serialise format).Valid := by
  have keyValid (key : PublicKey) : (Json.ofKey key).Valid := .string _
  cases msg with
  | advertise msg =>
    refine Json.record_valid (by simp) ?_
    cases hasMatch : msg.match_ <;>
      simp [MatchField.serialise, keyValid, format.valid, Json.Valid.string]
  | unadvertise msg => exact Json.record_valid (by simp) (by simp [Json.Valid.string])
  | claim msg =>
    exact Json.record_valid (by simp) (by simp [Json.Valid.string, keyValid, format.valid])
  | ack msg => exact Json.record_valid (by simp) (by simp [Json.Valid.string, keyValid])

theorem Message.deserialise_serialise {msg : Message Counter} (sendable : msg.Sendable) :
    ∃ fields, msg.serialise format = .object fields ∧
      Message.deserialise format foreign fields msg.channel = some msg := by
  cases msg with
  | advertise msg =>
    obtain ⟨advertiser, match_, counter⟩ := msg
    refine ⟨_, rfl, ?_⟩
    cases match_ with
    | string value =>
      simp [Message.deserialise, Message.channel, MatchAdvertiseMessage.deserialise, Json.get,
        MatchField.serialise, Text.ofString_eq_iff, format.read_write]
    | other text =>
      obtain rfl := sendable text rfl
      simp [Message.deserialise, Message.channel, MatchAdvertiseMessage.deserialise, Json.get,
        MatchField.serialise, Text.ofString_eq_iff, format.read_write, Foreign.readMatch]
  | unadvertise msg =>
    refine ⟨_, rfl, ?_⟩
    simp [Message.deserialise, Message.channel, MatchUnadvertiseMessage.deserialise, Json.get]
  | claim msg =>
    refine ⟨_, rfl, ?_⟩
    simp [Message.deserialise, Message.channel, MatchClaimMessage.deserialise, Json.get,
      Text.ofString_eq_iff, format.read_write]
  | ack msg =>
    refine ⟨_, rfl, ?_⟩
    simp [Message.deserialise, Message.channel, MatchAckMessage.deserialise, Json.get,
      Text.ofString_eq_iff]

theorem Message.decoded_encoded {msg : Message Counter} (sendable : msg.Sendable) :
    Message.decoded format foreign msg.channel (msg.encoded format) = some msg := by
  obtain ⟨fields, serialised, deserialised⟩ :=
    Message.deserialise_serialise format foreign sendable
  have valid := Message.serialise_valid format msg
  rw [serialised] at valid
  rw [Message.decoded, Message.encoded, serialised, Json.decoded_encoded valid]
  exact deserialised

-- The four `send` methods as they are written: what they handle locally is what they have encoded.
def sendEncoded (env : Env Counter) (agentListener : UpdateHandler Counter)
    (msg : Message Counter) : Handler Counter Unit := do
  emit (.publish msg)
  match Message.decoded format foreign msg.channel (msg.encoded format) with
  | some msg => handleMessage env agentListener msg
  | none => pure ()

theorem sendEncoded_eq (env : Env Counter) (agentListener : UpdateHandler Counter)
    {msg : Message Counter} (sendable : msg.Sendable) :
    sendEncoded format foreign env agentListener msg = sendMessage env agentListener msg := by
  rw [sendEncoded, Message.decoded_encoded format foreign sendable]
  rfl

end RoundTrip

end RoundTable.Matcher
