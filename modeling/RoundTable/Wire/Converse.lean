import RoundTable.Matcher.Handshake
import RoundTable.Wire.Bus

set_option autoImplicit false

namespace RoundTable.Wire

open Client Matcher Reactive Script

variable {Node Counter : Type} [DecidableEq Node] [IntCast Counter]
variable {codec : Codec Counter} {netName : Node → String} {id : Node → PublicKey}
variable {net : Bus Node Counter} {peers : Peers Node Counter}

theorem Running.match_outputs (running : Running codec netName id net)
    {record : BusRecord Node Counter} (member : record ∈ net.history)
    {step : MatchRecord Node Counter} (isStep : matchStep codec record = some step) :
    record.outputs = step.outputs.map fun action => record.before.write codec (.match_ action) := by
  obtain ⟨earlier, later, split⟩ := List.append_of_mem member
  obtain ⟨past, pastRunning, -, -, answered⟩ := running.recorded split
  have pristine := ((Running.sound pastRunning).honest record.node).pristine
  have before : record.before = past.nodes record.node := congrArg Record.before answered
  have outputs := congrArg Record.outputs answered
  rw [← before] at pristine
  simp only [Network.answer, ← before, BusClient.react] at outputs
  unfold matchStep at isStep
  split at isStep
  next env event only =>
    obtain rfl := Option.some.inj isStep
    rw [only, Machine.run_singleton] at outputs
    cases called : record.input.event with
    | sendPresenceMessage => simp [BusClient.events, called] at only
    | call | deliver =>
      rw [called] at outputs
      simp [outputs, RoundTableClient.handle, MatchManager.react, pristine]
  next => cases isStep

def Sends (codec : Codec Counter) (netName : Node → String) (record : BusRecord Node Counter)
    (msg : Message Counter) : Prop :=
  .publish (topic (netName record.node) (.match_ msg.channel)) (msg.encoded codec.format) ∈
    record.outputs

theorem Carries.sends (carries : Carries codec net peers) (running : Running codec netName id net)
    {record : PeerRecord Node Counter} (member : record ∈ peers.history) {msg : Message Counter}
    (published : .publish msg ∈ record.outputs) :
    ∃ sender ∈ net.history, sender.node = record.node ∧ Sends codec netName sender msg := by
  have carried : PeerRecord.step record ∈ net.history.filterMap (matchStep codec) :=
    carries.history ▸ List.mem_map_of_mem member
  obtain ⟨sender, inHistory, isStep⟩ := List.mem_filterMap.mp carried
  refine ⟨sender, inHistory, (matchStep_node isStep).symm, ?_⟩
  rw [Sends, running.match_outputs inHistory isStep]
  refine List.mem_map.mpr ⟨_, published, ?_⟩
  obtain ⟨earlier, later, split⟩ := List.append_of_mem inHistory
  obtain ⟨past, pastRunning, -, -, answered⟩ := running.recorded split
  have before : sender.before = past.nodes sender.node := congrArg Record.before answered
  rw [before, ← (Running.sound pastRunning).networks sender.node]
  rfl

theorem Carries.follows (carries : Carries codec net peers)
    (running : Running codec netName id net) (reached : Reaches id (Local netName) peers)
    {node : Node} {step : PeerInput Counter}
    (allowed : Local netName peers.history node step) {world : World Counter}
    (same : { world.env with realm := .pristine } = step.env) :
    ∃ event : BusEvent Counter, Relayed netName net.history node ⟨world, event⟩ ∧
      Carries codec (net.advance (BusClient.react codec) node ⟨world, event⟩)
        (peers.advance MatchManager.peer node step) := by
  have sound := Running.sound running
  have pristine := (sound.honest node).pristine
  obtain ⟨lossy, senders⟩ := allowed
  obtain ⟨⟨env, event, clean⟩, packet⟩ := step
  obtain rfl : _ = env := same
  cases event with
  | findMatch targetMatch counter callback =>
    exact ⟨.call (.findMatch targetMatch counter callback), trivial,
      carries.moved rfl pristine packet⟩
  | stopMatch => exact ⟨.call .stopMatch, trivial, carries.moved rfl pristine packet⟩
  | poll time => exact ⟨.call (.poll time), trivial, carries.moved rfl pristine packet⟩
  | checkTimeouts time =>
    exact ⟨.call (.checkTimeouts time), trivial, carries.moved rfl pristine packet⟩
  | addMatchListener listener =>
    exact ⟨.call (.addMatchListener listener), trivial, carries.moved rfl pristine packet⟩
  | receiveMalformed => exact lossy.elim
  | receive msg =>
    obtain ⟨packet', sender, isPacket, isPublished⟩ := lossy
    obtain ⟨earlier, found, rfl, output⟩ := published_iff.mp isPublished
    have isEarlier := List.mem_of_getElem? found
    have sent := List.mem_of_getElem? output
    obtain ⟨record, member, isSender, delivered⟩ := carries.sends running isEarlier sent
    rw [Sends, isSender, senders packet' _ msg isPacket isPublished] at delivered
    refine ⟨.deliver (topic (netName node) (.match_ msg.channel)) (msg.encoded codec.format),
      ⟨⟨_, rfl⟩, record, member, delivered⟩, carries.moved ?_ pristine packet⟩
    have stepped := Reaches.stepped reached isEarlier
    obtain ⟨request, -, allows⟩ := stepped.effect.allows stepped.inv (mem_visible_publish.mpr sent)
    have sendable : (Publication.match_ msg).Sendable := sendable_of_allows allows
    have heard := receive_publication codec world sendable
    simp only [BusClient.events, sound.networks, subscribed_topic, List.map_singleton]
    exact congrArg ([·]) heard

variable (codec) in
theorem Reaches.followed (reached : Reaches id (Local netName) peers) :
    ∃ net : Bus Node Counter, Running codec netName id net ∧ Carries codec net peers := by
  refine reached.simulated (fun peers net => Carries codec net peers) ⟨fun _ => rfl, rfl⟩ ?_
  intro peers net node step reached running carries allowed
  let world : World Counter := ⟨step.env, fun _ => false, 0, Text.ofString ""⟩
  have same : { world.env with realm := .pristine } = step.env := by
    rw [← step.pristine]
  obtain ⟨event, relayed, moved⟩ := carries.follows running reached allowed same
  exact .inr ⟨_, relayed, moved⟩

/-- On the bus the match managers do what they may do as peers that exchange their messages, and no
bytes: all of it, and nothing else. -/
theorem managers_refine (managers : Node → MatchManager Counter)
    (history : List (MatchRecord Node Counter)) :
    (∃ net : Bus Node Counter, Running codec netName id net ∧
      (∀ node, (net.nodes node).client.matchManager = managers node) ∧
        net.history.filterMap (matchStep codec) = history) ↔
    ∃ peers : Peers Node Counter, Reaches id (Local netName) peers ∧
      peers.nodes = managers ∧ peers.history.map PeerRecord.step = history := by
  constructor
  · rintro ⟨net, running, nodes, rfl⟩
    obtain ⟨peers, reached, carries⟩ := running.carried
    exact ⟨peers, reached, funext fun node => (carries.nodes node).trans (nodes node),
      carries.history⟩
  · rintro ⟨peers, reached, rfl, rfl⟩
    obtain ⟨net, running, carries⟩ := Reaches.followed codec reached
    exact ⟨net, running, fun node => (carries.nodes node).symm, carries.history.symm⟩

section Pairing

variable (netName) in
def Among (host guest : Node) (world : World Counter) :
    Network.Enabled Node (BusClient Counter) (BusInput Counter) (BusOutput Counter) :=
  fun history node input => Relayed netName history node input ∧ (node = host ∨ node = guest) ∧
    input.toWorld = world

structure Meets (id : Node → PublicKey) (host guest : Node) (matchId : String)
    (hosted joined : Callback) (counter : Counter) (records : List (BusRecord Node Counter)) :
    Prop where
  hosts : ∃ record ∈ records, record.node = host ∧ ∃ agent result, result.matchId = matchId ∧
    result.claimsSeen.head? = some (id guest, counter) ∧
      .shown (.match_ (.callback agent hosted (some result))) ∈ record.outputs
  joins : ∃ record ∈ records, record.node = guest ∧ ∃ agent result, result.matchId = matchId ∧
    .shown (.match_ (.callback agent joined (some result))) ∈ record.outputs

theorem Carries.goes_on (carries : Carries codec net peers)
    (running : Running codec netName id net) (reached : Reaches id (Local netName) peers)
    {host guest : Node} (sameNet : netName host = netName guest) {world : World Counter}
    {peers' : Peers Node Counter}
    (continues : Network.Continues MatchManager.peer
      (Between host guest { world.env with realm := .pristine }) peers peers') :
    ∃ net', Network.Continues (BusClient.react codec) (Among netName host guest world) net net' ∧
      Running codec netName id net' ∧ Carries codec net' peers' := by
  let related (peers : Peers Node Counter) (net : Bus Node Counter) : Prop :=
    Running codec netName id net ∧ Reaches id (Local netName) peers ∧ Carries codec net peers
  have initial : related peers net := ⟨running, reached, carries⟩
  have goes : ∃ net', Network.Continues (BusClient.react codec) (Among netName host guest world)
      net net' ∧ related peers' net' := by
    refine continues.simulated related initial ?_
    rintro peers net node step ⟨running, reached, carries⟩ ⟨lossy, mover, same, senders⟩
    have allowed : Local netName peers.history node step := by
      refine ⟨lossy, fun packet sender msg isPacket isPublished => ?_⟩
      rcases senders packet sender msg isPacket isPublished with rfl | rfl <;>
        rcases mover with rfl | rfl <;> simp [sameNet]
    obtain ⟨event, relayed, moved⟩ := carries.follows running reached allowed same.symm
    exact ⟨⟨world, event⟩, ⟨relayed, mover, rfl⟩, .step _ _ _ running relayed,
      .step _ _ _ reached allowed, moved⟩
  obtain ⟨net', goesOn, running', -, carries'⟩ := goes
  exact ⟨net', goesOn, running', carries'⟩

theorem Carries.meets (carries : Carries codec net peers) {net' : Bus Node Counter}
    {peers' : Peers Node Counter} (carries' : Carries codec net' peers')
    (running' : Running codec netName id net') {host guest : Node} {matchId : String}
    {hosted joined : Callback} {counter : Counter} {steps : List (PeerRecord Node Counter)}
    {records : List (BusRecord Node Counter)} (stepped : peers'.history = peers.history ++ steps)
    (recorded : net'.history = net.history ++ records)
    (paired : Paired id host guest matchId hosted joined counter steps) :
    Meets id host guest matchId hosted joined counter records := by
  have same : steps.map PeerRecord.step = records.filterMap (matchStep codec) := by
    have whole := carries'.history
    rw [stepped, recorded, List.map_append, List.filterMap_append, carries.history] at whole
    exact List.append_cancel_left whole
  have shows {step : PeerRecord Node Counter} (member : step ∈ steps) :
      ∃ record ∈ records, record.node = step.node ∧ ∀ agent callback result,
        .callback agent callback result ∈ step.outputs →
          .shown (.match_ (.callback agent callback result)) ∈ record.outputs := by
    obtain ⟨record, isRecord, isStep⟩ := List.mem_filterMap.mp
      (same ▸ List.mem_map_of_mem member : PeerRecord.step step ∈ _)
    refine ⟨record, isRecord, (matchStep_node isStep).symm, fun agent callback result called => ?_⟩
    rw [running'.match_outputs (recorded ▸ List.mem_append_right _ isRecord) isStep]
    exact List.mem_map.mpr ⟨_, called, rfl⟩
  obtain ⟨hosting, isHosting, isHost, agent, result, isMatch, hosts, called⟩ := paired.hosts
  obtain ⟨joining, isJoining, isGuest, agent', result', isMatch', called'⟩ := paired.joins
  obtain ⟨record, isRecord, node, shown⟩ := shows isHosting
  obtain ⟨record', isRecord', node', shown'⟩ := shows isJoining
  exact ⟨⟨record, isRecord, node.trans isHost, agent, result, isMatch, hosts.first,
    shown _ _ _ called⟩, ⟨record', isRecord', node'.trans isGuest, agent', result', isMatch',
    shown' _ _ _ called'⟩⟩

/-- Whatever has happened on the bus, there is a time from which on any two clients of a network can
show their users a match on any game, each by a search of its own. -/
theorem Running.can_pair (running : Running codec netName id net) {host guest : Node}
    (sameNet : netName host = netName guest) (different : id host ≠ id guest) (game : String)
    (hostCounter counter : Counter) (hosted joined : Callback) :
    ∃ start : Int, ∀ world : World Counter, (∀ query, start ≤ world.env.clock query) →
      (∀ call, world.env.callbackThrows call = false) →
        ∃ net' records,
          Network.Continues (BusClient.react codec) (Among netName host guest world) net net' ∧
            net'.history = net.history ++ records ∧
              Meets id host guest (getMatchID (id host) (.string game)) hosted joined counter
                records := by
  obtain ⟨peers, reached, carries⟩ := running.carried
  obtain ⟨start, pairs⟩ := Reaches.pairs_again (reached.mono fun _ _ _ allowed => allowed.1)
    different game hostCounter counter hosted joined
  refine ⟨start, fun world late returns => ?_⟩
  obtain ⟨peers', steps, continues, stepped, -, -, paired⟩ :=
    pairs { world.env with realm := .pristine } rfl late returns
  obtain ⟨net', goesOn, running', carries'⟩ := carries.goes_on running reached sameNet continues
  obtain ⟨records, recorded⟩ := goesOn.history
  exact ⟨net', records, goesOn, recorded, carries.meets carries' running' stepped recorded paired⟩

theorem can_pair_table :
    let net := smallBus.play (BusClient.react smallCodec) tableSteps
    ∃ start : Int, ∀ world : World Int, (∀ query, start ≤ world.env.clock query) →
      (∀ call, world.env.callbackThrows call = false) →
        ∃ net' records,
          Network.Continues (BusClient.react smallCodec) (Among smallNet 0 1 world) net net' ∧
            net'.history = net.history ++ records ∧
              Meets smallKey 0 1 (getMatchID (smallKey 0) (.string "go")) 1 1 2 records :=
  Running.can_pair tableSteps_running (show smallNet 0 = smallNet 1 from rfl) (by decide) "go" 1 2 1 1

end Pairing

end RoundTable.Wire
