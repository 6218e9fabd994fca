import RoundTable.Client.RoundTable
import RoundTable.Matcher.Publishing
import RoundTable.Shared.KeyText
import RoundTable.Wire.Channels

set_option autoImplicit false

namespace RoundTable.Wire

open Client Matcher Reactive Script

variable {Counter : Type}

/-- How counters are written, and what the script makes of the values that no client writes. -/
structure Codec (Counter : Type) where
  format : CounterFormat Counter
  foreign : Foreign
  userText : Json → Option String

/-- What the world decides while a client handles one event. The listeners of the chat throw as
`throws` says. -/
structure World (Counter : Type) where
  env : Env Counter
  throws : Nat → Bool
  now : Int
  time : Text

inductive Publication (Counter : Type) where
  | chat (msg : ChatMessage)
  | presence (msg : PresenceMessage)
  | match_ (msg : Message Counter)

namespace Publication

def channel : Publication Counter → Channel
  | .chat _ => .chat
  | .presence _ => .presence
  | .match_ msg => .match_ msg.channel

def encoded (codec : Codec Counter) : Publication Counter → List UInt8
  | .chat msg => msg.encoded
  | .presence msg => msg.encoded
  | .match_ msg => msg.encoded codec.format

def Sendable : Publication Counter → Prop
  | .match_ msg => msg.Sendable
  | _ => True

-- What a client that hears a publication handles.
def heard (world : World Counter) : Publication Counter → ClientEvent Counter
  | .chat msg => .chat world.throws (.message msg)
  | .presence msg => .presence world.now msg.user.toString
  | .match_ msg => .match_ world.env (.receive msg)

end Publication

def receive (codec : Codec Counter) (world : World Counter) (data : List UInt8) :
    Channel → ClientEvent Counter
  | .chat =>
    match parseChatMessage data with
    | some msg => .chat world.throws msg
    | none => .chatMalformed
  | .presence =>
    match parsePresenceMessage codec.userText data with
    | some user => .presence world.now user
    | none => .presenceMalformed
  | .match_ channel =>
    match Message.decoded codec.format codec.foreign channel data with
    | some msg => .match_ world.env (.receive msg)
    | none => .match_ world.env .receiveMalformed

theorem receive_publication (codec : Codec Counter) (world : World Counter)
    {publication : Publication Counter} (sendable : publication.Sendable) :
    receive codec world (publication.encoded codec) publication.channel = publication.heard world := by
  cases publication with
  | chat msg => simp [receive, Publication.encoded, Publication.channel, Publication.heard,
      parseChatMessage_encoded]
  | presence msg => simp [receive, Publication.encoded, Publication.channel, Publication.heard,
      parsePresenceMessage_encoded]
  | match_ msg => simp [receive, Publication.encoded, Publication.channel, Publication.heard,
      Message.decoded_encoded codec.format codec.foreign sendable]

theorem heard_inj (world : World Counter) {publication other : Publication Counter}
    (same : other.heard world = publication.heard world) : other = publication := by
  cases publication with
  | chat msg => cases other <;> cases same; rfl
  | match_ msg => cases other <;> cases same; rfl
  | presence msg =>
    cases other with
    | chat | match_ => cases same
    | presence msg' =>
      obtain ⟨user⟩ := msg
      obtain rfl := PublicKey.toString_inj (ClientEvent.presence.inj same).2
      rfl

theorem receive_encoded (codec : Codec Counter) (world : World Counter)
    {publication other : Publication Counter} (sendable : publication.Sendable)
    (otherSendable : other.Sendable) (sameChannel : other.channel = publication.channel) :
    receive codec world (publication.encoded codec) publication.channel =
        publication.heard world ∧
      (other.encoded codec = publication.encoded codec ↔ other = publication) := by
  have heard := receive_publication codec world sendable
  refine ⟨heard, fun same => heard_inj world ?_, congrArg _⟩
  rw [← receive_publication codec world otherSendable, same, sameChannel, heard]

def smallForeign : Foreign where
  key
    | .string text => text.toString?.bind PublicKey.ofString
    | _ => none
  text _ := ""
  key_ofKey := by simp [Json.ofKey, Text.toString?_ofString]

def smallCodec : Codec Int where
  format := .int
  foreign := smallForeign
  userText _ := none

def World.still (now : Int) : World Int :=
  ⟨.still now, fun _ => false, now, Text.ofString "12:00"⟩

theorem receive_encoded_claim :
    let claim (counter : Int) : Publication Int :=
      .match_ (.claim ⟨"1chess", .small 2, counter⟩)
    receive smallCodec (.still 3) ((claim (-7)).encoded smallCodec) (.match_ .claim) =
        .match_ (.still 3) (.receive (.claim ⟨"1chess", .small 2, -7⟩)) ∧
      ((claim 7).encoded smallCodec = (claim (-7)).encoded smallCodec ↔ claim 7 = claim (-7)) :=
  receive_encoded smallCodec (.still 3)
    (show (Publication.match_ (.claim ⟨"1chess", .small 2, -7⟩)).Sendable from trivial)
    (show (Publication.match_ (.claim ⟨"1chess", .small 2, 7⟩)).Sendable from trivial) rfl

inductive Call (Counter : Type) where
  | sendChatMessage (msg : Text)
  | addChatListener (listener : Nat)
  | addMatchListener (listener : Nat)
  | findMatch (match_ : List String) (counter : Counter) (callback : Callback)
  | stopMatch
  | poll (time : Int)
  | checkTimeouts (time : Int)

def Call.event (world : World Counter) : Call Counter → ClientEvent Counter
  | .sendChatMessage msg => .sendChatMessage world.throws world.time msg
  | .addChatListener listener => .addChatListener listener
  | .addMatchListener listener => .match_ world.env (.addMatchListener listener)
  | .findMatch match_ counter callback => .match_ world.env (.findMatch match_ counter callback)
  | .stopMatch => .match_ world.env .stopMatch
  | .poll time => .match_ world.env (.poll time)
  | .checkTimeouts time => .match_ world.env (.checkTimeouts time)

inductive BusEvent (Counter : Type) where
  | sendPresenceMessage
  | call (call : Call Counter)
  | deliver (topic : String) (data : List UInt8)

structure BusInput (Counter : Type) extends World Counter where
  event : BusEvent Counter

inductive BusOutput (Counter : Type) where
  | publish (topic : String) (data : List UInt8)
  | shown (output : ClientOutput Counter)
deriving DecidableEq

structure BusClient (Counter : Type) where
  netName : String
  id : PublicKey
  client : RoundTableClient Counter

def publication : ClientOutput Counter → Option (Publication Counter)
  | .chat (.publish msg) => some (.chat msg)
  | .match_ (.publish msg) => some (.match_ msg)
  | _ => none

namespace BusClient

def new [IntCast Counter] (netName : String) (id : PublicKey) : BusClient Counter :=
  ⟨netName, id, .new id⟩

section React

variable (codec : Codec Counter)

def pub (client : BusClient Counter) (publication : Publication Counter) : BusOutput Counter :=
  .publish (topic client.netName publication.channel) (publication.encoded codec)

def write (client : BusClient Counter) (output : ClientOutput Counter) : BusOutput Counter :=
  match publication output with
  | some publication => client.pub codec publication
  | none => .shown output

-- What the managers of a client are called with.
def events (client : BusClient Counter) (input : BusInput Counter) : List (ClientEvent Counter) :=
  match input.event with
  | .sendPresenceMessage => []
  | .call call => [call.event input.toWorld]
  | .deliver topic data =>
    (subscribed client.netName topic).map fun channel => receive codec input.toWorld data channel

def react : Machine (BusClient Counter) (BusInput Counter) (BusOutput Counter) :=
  fun client input =>
    let handled := RoundTableClient.handle.run client.client (client.events codec input)
    let written := handled.2.map (client.write codec)
    ({ client with client := handled.1 },
      match input.event with
      | .sendPresenceMessage => client.pub codec (.presence ⟨client.id⟩) :: written
      | _ => written)

theorem publishes_topic {client : BusClient Counter} {input : BusInput Counter} {reached : String}
    {data : List UInt8} (published : .publish reached data ∈ (client.react codec input).2) :
    ∃ channel, reached = topic client.netName channel := by
  have written {outputs : List (ClientOutput Counter)}
      (member : .publish reached data ∈ outputs.map (client.write codec)) :
      ∃ channel, reached = topic client.netName channel := by
    obtain ⟨output, -, same⟩ := List.mem_map.mp member
    unfold write at same
    split at same
    next publication _ => exact ⟨publication.channel, (BusOutput.publish.inj same).1.symm⟩
    next => cases same
  simp only [react] at published
  split at published
  next =>
    rcases List.mem_cons.mp published with announced | later
    · exact ⟨.presence, (BusOutput.publish.inj announced).1⟩
    · exact written later
  next => exact written published

end React

end BusClient

/-- A client that has kept its name, in a realm whose shared objects no script has written to. -/
structure Honest (id : PublicKey) (client : RoundTableClient Counter) : Prop where
  pristine : client.realm = .pristine
  chatter : client.chatManager.id = id
  inv : client.matchManager.Inv
  player : client.matchManager.matchAgent.id = id

-- What a client with this name publishes as it handles an event. Messages of the match manager
-- belong to the search that the event starts, or else to the one under way.
def Publication.Of (id : PublicKey) (client : RoundTableClient Counter)
    (event : ClientEvent Counter) : Publication Counter → Prop
  | .chat msg => ∃ throws time text, event = .sendChatMessage throws time text ∧
      msg = ⟨Text.ofString id.toString, sanitise text, time⟩
  | .presence _ => False
  | .match_ msg => ∃ env matchEvent request, event = .match_ env matchEvent ∧
      (matchEvent.asks client.matchManager).or client.matchManager.request = some request ∧
        request.Allows id msg

theorem sendable_of_allows {id : PublicKey} {request : SearchRequest Counter}
    {msg : Message Counter} (allowed : request.Allows id msg) : msg.Sendable := by
  cases msg with
  | advertise msg =>
    obtain rfl : msg = _ := allowed
    intro text other
    cases targets : request.targetMatch with
    | nil => simpa [targets, advertised] using other.symm
    | cons target rest => simp [targets, advertised] at other
  | unadvertise | claim | ack => trivial

theorem publication_callListeners {throws : Nat → Bool} {msg : Parsed} {n : Nat}
    {listeners : List (Visited Nat)} {output : ChatOutput}
    (called : output ∈ ChatManager.callListeners throws msg n listeners) :
    publication (.chat output : ClientOutput Counter) = none := by
  induction listeners generalizing n with
  | nil => simp [ChatManager.callListeners] at called
  | cons listener rest ih =>
    cases listener with
    | inherited value =>
      obtain rfl : output = .uncaught := by simpa [ChatManager.callListeners] using called
      rfl
    | own listener =>
      simp only [ChatManager.callListeners, List.mem_cons] at called
      rcases called with rfl | later
      · rfl
      · split at later
        next =>
          obtain rfl := List.mem_singleton.mp later
          rfl
        next => exact ih later

namespace Honest

variable {id : PublicKey} {client : RoundTableClient Counter}

theorem handle (honest : Honest id client) {event : ClientEvent Counter} (plain : event.Plain) :
    Honest id (client.handle event).1 := by
  have pristine := RoundTableClient.handle_pristine honest.pristine plain
  cases event with
  | presence now user =>
    refine ⟨pristine, ?_, ?_, ?_⟩ <;>
      rw [RoundTableClient.handle_presence, RoundTableClient.handlePresence_observation] <;> split
    all_goals first | exact honest.chatter | exact honest.inv | exact honest.player
  | match_ env event =>
    have effect := client.matchManager.react_effect honest.inv
      ⟨{ env with realm := client.realm }, event, honest.pristine⟩
    exact ⟨pristine, honest.chatter, effect.inv honest.inv, effect.id_kept.trans honest.player⟩
  | presenceMalformed | chat | chatMalformed | sendChatMessage | addChatListener =>
    exact ⟨pristine, honest.chatter, honest.inv, honest.player⟩

theorem publishes (honest : Honest id client) {event : ClientEvent Counter}
    {output : ClientOutput Counter} (shown : output ∈ (client.handle event).2)
    {publication : Publication Counter} (isPublished : Wire.publication output = some publication) :
    publication.Of id client event := by
  cases event with
  | presence now user =>
    rw [RoundTableClient.handle_presence, RoundTableClient.handlePresence_observation] at shown
    split at shown
    · simp at shown
    · simp at shown
    · obtain rfl := List.mem_singleton.mp shown
      cases isPublished
  | presenceMalformed | chatMalformed =>
    obtain rfl := List.mem_singleton.mp shown
    cases isPublished
  | addChatListener => simp [RoundTableClient.handle] at shown
  | chat throws msg =>
    obtain ⟨called, member, rfl⟩ := List.mem_map.mp shown
    rw [publication_callListeners member] at isPublished
    cases isPublished
  | sendChatMessage throws time text =>
    obtain ⟨action, member, rfl⟩ := List.mem_map.mp shown
    rcases List.mem_cons.mp member with rfl | called
    · obtain rfl := Option.some.inj isPublished
      exact ⟨throws, time, text, rfl, by rw [← honest.chatter]⟩
    · rw [publication_callListeners called] at isPublished
      cases isPublished
  | match_ env event =>
    obtain ⟨action, member, rfl⟩ := List.mem_map.mp shown
    cases action with
    | callback | listener => cases isPublished
    | publish msg =>
      obtain rfl := Option.some.inj isPublished
      have effect := client.matchManager.react_effect honest.inv
        ⟨{ env with realm := client.realm }, event, honest.pristine⟩
      obtain ⟨request, asks, allowed⟩ := effect.allows honest.inv (mem_visible_publish.mpr member)
      exact ⟨env, event, request, rfl, asks, honest.player ▸ allowed⟩

end Honest

end RoundTable.Wire
