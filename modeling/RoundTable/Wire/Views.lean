import RoundTable.Client.ChatLog
import RoundTable.Matcher.Catalogue
import RoundTable.Wire.Converse

set_option autoImplicit false

namespace RoundTable.Wire

open Client Matcher Reactive Script

variable {Node Counter : Type}

section Steps

-- What an event adds to the chat of a client.
def chatted (id : PublicKey) : ClientEvent Counter → Option Parsed
  | .chat _ msg => some msg
  | .sendChatMessage _ time msg =>
    some (.message ⟨Text.ofString id.toString, sanitise msg, time⟩)
  | _ => none

def sighted : ClientEvent Counter → Option (String × Int)
  | .presence now user => some (user, now)
  | _ => none

theorem handle_chatLog {id : PublicKey} {client : RoundTableClient Counter}
    (honest : Honest id client) (event : ClientEvent Counter) {heard : List Parsed}
    (window : client.chatManager.chatLog = heard.rtake ChatManager.entries) :
    (client.handle event).1.chatManager.chatLog =
      (heard ++ (chatted id event).toList).rtake ChatManager.entries := by
  cases event with
  | chat throws msg =>
    rw [chatted, Option.toList_some, ← rtake_snoc, ← window]
    rfl
  | sendChatMessage throws time msg =>
    rw [chatted, Option.toList_some, ← rtake_snoc, ← window, ← honest.chatter]
    rfl
  | presence now user =>
    simp only [chatted, Option.toList_none, List.append_nil, ← window]
    rw [RoundTableClient.handle_presence, RoundTableClient.handlePresence_observation]
    split <;> rfl
  | presenceMalformed | chatMalformed | addChatListener | match_ =>
    simp only [chatted, Option.toList_none, List.append_nil, ← window]
    rfl

theorem handle_lookup {client : RoundTableClient Counter} (pristine : client.realm = .pristine)
    {event : ClientEvent Counter} (plain : event.Plain) (user : String) :
    (client.handle event).1.presenceManager.peerMap.lookup user =
      match sighted event with
      | some (seen, now) =>
        if user = seen then some (client.presenceManager.observed now user)
        else client.presenceManager.peerMap.lookup user
      | none => client.presenceManager.peerMap.lookup user := by
  cases event with
  | presence now seen =>
    have harmless : client.presenceManager.Harmless client.realm seen := by
      refine .inr fun value found => ?_
      rw [pristine] at found
      cases value with
      | object shared => exact absurd found (plain shared)
      | number value => exact absurd found (by simp)
    simp only [RoundTableClient.handle_presence, RoundTableClient.handlePresence_observation,
      PresenceManager.observation_record _ _ _ _ harmless, PresenceManager.lookup_put, sighted]
    split
    next same => rw [same]
    next => rfl
  | presenceMalformed | chat | chatMalformed | sendChatMessage | addChatListener | match_ => rfl

end Steps

section History

variable [DecidableEq Node] (codec : Codec Counter) (netName : Node → String)
variable (id : Node → PublicKey)

-- What the managers of a client have been called with.
def taken (history : List (BusRecord Node Counter)) (node : Node) : List (ClientEvent Counter) :=
  (history.filter (·.node = node)).flatMap fun record => record.before.events codec record.input

def lastSighted (history : List (BusRecord Node Counter)) (node : Node) (user : String) :
    Option Int :=
  (((taken codec history node).filterMap sighted).filter (·.1 = user)).getLast?.map (·.2)

theorem taken_snoc (history : List (BusRecord Node Counter)) (record : BusRecord Node Counter)
    (node : Node) :
    taken codec (history ++ [record]) node =
      taken codec history node ++
        if record.node = node then record.before.events codec record.input else [] := by
  by_cases same : record.node = node <;> simp [taken, same]

variable [IntCast Counter] {codec netName id} {net : Bus Node Counter}

theorem Running.everywhere (kept : Node → List (ClientEvent Counter) → RoundTableClient Counter → Prop)
    (initial : ∀ node, kept node [] (.new (id node)))
    (preserved : ∀ node events client (event : ClientEvent Counter), Honest (id node) client →
      event.Plain → kept node events client → kept node (events ++ [event]) (client.handle event).1)
    (running : Running codec netName id net) (node : Node) :
    kept node (taken codec net.history node) (net.nodes node).client := by
  refine Network.Reachable.everywhere
    (fun history node (state : BusClient Counter) =>
      kept node (taken codec history node) state.client) ?_ ?_ ?_ running node
  · exact initial
  · intro history record node state other before
    simpa [taken_snoc, other] using before
  · intro net node input running allowed before
    have sound := Running.sound running
    have takes := sound.takes allowed
    rw [taken_snoc, if_pos (show (net.answer (BusClient.react codec) node input).node = node from rfl)]
    simp only [Network.answer, BusClient.react]
    generalize (net.nodes node).events codec input = events at takes
    have plain := takes.plain
    cases takes with
    | announces => simpa using before
    | calls call => exact preserved _ _ _ _ (sound.honest node) (plain _ (by simp)) before
    | hears => exact preserved _ _ _ _ (sound.honest node) (plain _ (by simp)) before

theorem Running.chat_window (running : Running codec netName id net) (node : Node) :
    (net.nodes node).client.chatManager.chatLog =
      ((taken codec net.history node).filterMap (chatted (id node))).rtake ChatManager.entries := by
  apply running.everywhere (fun node events client =>
    client.chatManager.chatLog = (events.filterMap (chatted (id node))).rtake ChatManager.entries)
  · exact fun _ => rfl
  · intro node events client event honest plain window
    rw [handle_chatLog honest event window, List.filterMap_append]
    cases added : chatted (id node) event <;> simp [added]

theorem Running.taken_source (running : Running codec netName id net) {node : Node}
    {event : ClientEvent Counter} (member : event ∈ taken codec net.history node) :
    (∃ record ∈ net.history, record.node = node ∧ ∃ call, record.input.event = .call call ∧
      event = call.event record.input.toWorld) ∨
    ∃ sender ∈ net.history, netName sender.node = netName node ∧
      ∃ (publication : Publication Counter) (world : World Counter)
        (past : List (BusRecord Node Counter)),
        publication.SentIn codec id past sender ∧ event = publication.heard world := by
  obtain ⟨record, isRecord, inside⟩ := List.mem_flatMap.mp member
  obtain ⟨inHistory, own⟩ := List.mem_filter.mp isRecord
  obtain ⟨earlier, later, split⟩ := List.append_of_mem inHistory
  obtain ⟨past, pastRunning, rfl, allowed, answered⟩ := running.recorded split
  have takes := (Running.sound pastRunning).takes allowed
  have before : record.before = past.nodes record.node := congrArg Record.before answered
  rw [before] at inside
  generalize (past.nodes record.node).events codec record.input = events at takes inside
  have isNode : record.node = node := by simpa using own
  cases takes with
  | announces => cases inside
  | calls call called =>
    exact .inl ⟨record, inHistory, isNode, call, called, List.mem_singleton.mp inside⟩
  | hears before after sender isSplit sameNet publication sent =>
    refine .inr ⟨sender, ?_, isNode ▸ sameNet, publication, _, _, sent, List.mem_singleton.mp inside⟩
    rw [split, isSplit]
    simp

/-- A chat log is a window over what its client has handled, and each entry was sent by a user of the
same network, under the key of that user and cut to size. -/
theorem Running.chat_log (running : Running codec netName id net) (node : Node) :
    let log := (net.nodes node).client.chatManager.chatLog
    log = ((taken codec net.history node).filterMap (chatted (id node))).rtake ChatManager.entries ∧
    ∀ entry ∈ log, ∃ record ∈ net.history, netName record.node = netName node ∧
      ∃ text, record.input.event = .call (.sendChatMessage text) ∧
        entry = .message
          ⟨Text.ofString (id record.node).toString, sanitise text, record.input.time⟩ := by
  intro log
  have window : log = _ := running.chat_window node
  refine ⟨window, fun entry logged => ?_⟩
  rw [window] at logged
  obtain ⟨event, member, added⟩ := List.mem_filterMap.mp (List.mem_of_mem_drop logged)
  rcases running.taken_source member with
    ⟨record, inHistory, rfl, call, called, rfl⟩ | ⟨sender, isSender, sameNet, publication, world, _, sent, rfl⟩
  · cases call with
    | sendChatMessage text => exact ⟨record, inHistory, rfl, text, called, (Option.some.inj added).symm⟩
    | _ => cases added
  · cases publication with
    | chat msg =>
      obtain ⟨text, called, rfl⟩ := sent
      exact ⟨sender, isSender, sameNet, text, called, (Option.some.inj added).symm⟩
    | presence | match_ => cases added

theorem chat_log_table :
    let net := smallBus.play (BusClient.react smallCodec) tableSteps
    let log := (net.nodes 1).client.chatManager.chatLog
    log = ((taken smallCodec net.history 1).filterMap
      (chatted (smallKey 1))).rtake ChatManager.entries ∧
    ∀ entry ∈ log, ∃ record ∈ net.history, smallNet record.node = smallNet 1 ∧
      ∃ text, record.input.event = .call (.sendChatMessage text) ∧
        entry = .message
          ⟨Text.ofString (smallKey record.node).toString, sanitise text, record.input.time⟩ :=
  Running.chat_log tableSteps_running 1

theorem Running.last_sighted (running : Running codec netName id net) (node : Node)
    (user : String) :
    (net.nodes node).client.presenceManager.peerMap.lookup user =
      (lastSighted codec net.history node user).map fun seen => ⟨user, seen⟩ := by
  apply running.everywhere (fun node events client =>
    client.presenceManager.peerMap.lookup user =
      (((events.filterMap sighted).filter (·.1 = user)).getLast?.map (·.2)).map
        fun seen => ⟨user, seen⟩)
  · exact fun _ => rfl
  · intro node events client event honest plain before
    rw [handle_lookup honest.pristine plain, before, List.filterMap_append, List.filter_append]
    cases seen : sighted event with
    | none => simp [seen]
    | some sight =>
      obtain ⟨shown, now⟩ := sight
      by_cases same : user = shown
      · subst same
        -- a record that stands already is under the same name
        have named : client.presenceManager.observed now user = ⟨user, now⟩ := by
          rw [PresenceManager.observed, before]
          cases ((events.filterMap sighted).filter (·.1 = user)).getLast? <;> rfl
        simp [seen, named]
      · simp [seen, same, Ne.symm same]

/-- `getPeers` shows every user once, and just those whose presence has been delivered, with the time
of the last delivery. Each has announced itself in the same network. -/
theorem Running.peers_seen (running : Running codec netName id net) (node : Node) :
    let client := (net.nodes node).client
    ∃ peers : List PeerPresence,
      client.presenceManager.getPeers client.realm = peers.map .own ∧ (peers.map (·.id)).Nodup ∧
      (∀ user seen, ⟨user, seen⟩ ∈ peers ↔ lastSighted codec net.history node user = some seen) ∧
      ∀ peer ∈ peers, ∃ record ∈ net.history, netName record.node = netName node ∧
        record.input.event = .sendPresenceMessage ∧ peer.id = (id record.node).toString := by
  intro client
  have pristine := ((Running.sound running).honest node).pristine
  have lookup := running.last_sighted node
  have named (key : String) (peer : PeerPresence)
      (found : client.presenceManager.peerMap.lookup key = some peer) : peer.id = key := by
    rw [lookup] at found
    obtain ⟨seen, -, rfl⟩ := Option.map_eq_some_iff.mp found
    rfl
  have held (user : String) (seen : Int) :
      (⟨user, seen⟩ : PeerPresence) ∈ client.presenceManager.peerMap.entries.map (·.2) ↔
        lastSighted codec net.history node user = some seen := by
    rw [AList.mem_values]
    constructor
    · rintro ⟨key, found⟩
      obtain rfl := named key _ found
      rw [lookup] at found
      obtain ⟨seen', last, same⟩ := Option.map_eq_some_iff.mp found
      obtain rfl : seen' = seen := congrArg PeerPresence.lastSeen same
      exact last
    · intro last
      exact ⟨user, by rw [lookup, last]; rfl⟩
  refine ⟨_, by rw [PresenceManager.getPeers, pristine, Realm.forIn_pristine], ?_, held, ?_⟩
  · have keys : (client.presenceManager.peerMap.entries.map (·.2)).map (·.id) =
        client.presenceManager.peerMap.keys := by
      rw [List.map_map]
      exact List.map_congr_left fun entry inside => named _ _ (AList.mem_lookup_iff.mpr inside)
    rw [keys]
    exact client.presenceManager.peerMap.keys_nodup
  · rintro ⟨user, seen⟩ member
    obtain ⟨sight, last, -⟩ := Option.map_eq_some_iff.mp ((held user seen).mp member)
    obtain ⟨inside, shown⟩ := List.mem_filter.mp (List.mem_of_getLast? last)
    obtain ⟨event, isTaken, sighting⟩ := List.mem_filterMap.mp inside
    obtain rfl : sight.1 = user := by simpa using shown
    rcases running.taken_source isTaken with
      ⟨record, inHistory, rfl, call, called, rfl⟩ | ⟨sender, isSender, sameNet, publication, world, _, sent, rfl⟩
    · cases call <;> cases sighting
    · cases publication with
      | presence msg =>
        obtain ⟨announced, named⟩ := sent
        obtain rfl := Option.some.inj sighting
        exact ⟨sender, isSender, sameNet, announced, congrArg PublicKey.toString named⟩
      | chat | match_ => cases sighting

theorem peers_seen_table :
    let net := smallBus.play (BusClient.react smallCodec) tableSteps
    let client := (net.nodes 1).client
    ∃ peers : List PeerPresence,
      client.presenceManager.getPeers client.realm = peers.map .own ∧ (peers.map (·.id)).Nodup ∧
      (∀ user seen, ⟨user, seen⟩ ∈ peers ↔ lastSighted smallCodec net.history 1 user = some seen) ∧
      ∀ peer ∈ peers, ∃ record ∈ net.history, smallNet record.node = smallNet 1 ∧
        record.input.event = .sendPresenceMessage ∧ peer.id = (smallKey record.node).toString :=
  Running.peers_seen tableSteps_running 1

omit [DecidableEq Node] [IntCast Counter] in
theorem sent_of_local {history : List (PeerRecord Node Counter)} {node : Node}
    {step : PeerInput Counter} {msg : Message Counter} (allowed : Local netName history node step)
    (received : step.event = .receive msg) :
    ∃ record ∈ history, netName record.node = netName node ∧ .publish msg ∈ record.outputs := by
  obtain ⟨lossy, senders⟩ := allowed
  simp only [Lossy, received] at lossy
  obtain ⟨packet, sender, isPacket, isPublished⟩ := lossy
  have sameNet := senders packet sender msg isPacket isPublished
  obtain ⟨record, found, rfl, output⟩ := published_iff.mp isPublished
  exact ⟨record, List.mem_of_getElem? found, sameNet, List.mem_of_getElem? output⟩

/-- `getMatches` shows every match once, under the name of its advertiser and its game, with one claim
of each user and no ack. The advertiser has advertised it, and whoever has a claim in it has claimed
it, with the counters that are shown, as clients of the same network. -/
theorem Running.matches_listed (running : Running codec netName id net) (node : Node) :
    ∃ shown : List (MatchState Counter),
      (net.nodes node).client.getMatches = shown.map .own ∧ (shown.map (·.matchId)).Nodup ∧
      ∀ entry ∈ shown, entry.matchId = getMatchID entry.advertiser entry.match_ ∧
        (entry.claimsSeen.map (·.1)).Nodup ∧ entry.acksSeen = [] ∧
        (∃ host ∈ net.history, netName host.node = netName node ∧
          id host.node = entry.advertiser ∧ Sends codec netName host
            (.advertise ⟨entry.advertiser, entry.match_, entry.advertiserCounter⟩)) ∧
        ∀ claim ∈ entry.claimsSeen, ∃ guest ∈ net.history, netName guest.node = netName node ∧
          id guest.node = claim.1 ∧
            Sends codec netName guest (.claim ⟨entry.matchId, claim.1, claim.2⟩) := by
  obtain ⟨honestRealm, -, inv, -⟩ := (Running.sound running).honest node
  obtain ⟨peers, reached, carries⟩ := running.carried
  refine ⟨_, by rw [RoundTableClient.getMatches, honestRealm, Realm.forIn_pristine], ?_, ?_⟩
  · have keys : ((net.nodes node).client.matchManager.matchMap.entries.map (·.2)).map (·.matchId) =
        (net.nodes node).client.matchManager.matchMap.keys := by
      rw [List.map_map]
      exact List.map_congr_left fun entry inside =>
        inv.keyed _ _ (AList.mem_lookup_iff.mpr inside)
    rw [keys]
    exact (net.nodes node).client.matchManager.matchMap.keys_nodup
  · intro entry member
    obtain ⟨matchId, held⟩ := AList.mem_values.mp member
    have sound := inv.sound matchId entry held
    have unacked : entry.acksSeen = [] := inv.unacked matchId entry held
    rw [← carries.nodes] at held
    obtain ⟨⟨host, isHost, hostKin, advertiser, advertised⟩, claims⟩ :=
      Reaches.listed_by_kin (fun sender peer => netName sender = netName peer) (fun _ => rfl)
        (fun _ _ _ _ => sent_of_local) reached held
    obtain ⟨record, inHistory, same, sends⟩ := carries.sends running isHost advertised
    refine ⟨sound.keyed.trans sound.identified.symm, sound.claimants, unacked,
      ⟨record, inHistory, same ▸ hostKin, same ▸ advertiser, sends⟩, ?_⟩
    intro claim isClaim
    obtain ⟨guest, isGuest, guestKin, claimant, claimed⟩ := claims claim isClaim
    obtain ⟨record, inHistory, same, sends⟩ := carries.sends running isGuest claimed
    exact ⟨record, inHistory, same ▸ guestKin, same ▸ claimant, sound.keyed ▸ sends⟩

theorem matches_listed_table :
    let net := smallBus.play (BusClient.react smallCodec) tableSteps
    ∃ shown : List (MatchState Int),
      (net.nodes 1).client.getMatches = shown.map .own ∧ (shown.map (·.matchId)).Nodup ∧
      ∀ entry ∈ shown, entry.matchId = getMatchID entry.advertiser entry.match_ ∧
        (entry.claimsSeen.map (·.1)).Nodup ∧ entry.acksSeen = [] ∧
        (∃ host ∈ net.history, smallNet host.node = smallNet 1 ∧
          smallKey host.node = entry.advertiser ∧ Sends smallCodec smallNet host
            (.advertise ⟨entry.advertiser, entry.match_, entry.advertiserCounter⟩)) ∧
        ∀ claim ∈ entry.claimsSeen, ∃ guest ∈ net.history, smallNet guest.node = smallNet 1 ∧
          smallKey guest.node = claim.1 ∧
            Sends smallCodec smallNet guest (.claim ⟨entry.matchId, claim.1, claim.2⟩) :=
  Running.matches_listed tableSteps_running 1

end History

end RoundTable.Wire
