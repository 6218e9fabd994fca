import RoundTable.Wire.Clients

set_option autoImplicit false

/-!
# Clients on a bus

The bus relays bytes to the subscribers of a topic, late, repeatedly or never, and networks of
different names share it. The clients of one network run as if they were alone, and their match
managers as if they exchanged messages.
-/

namespace RoundTable.Wire

open Client Matcher Reactive Script

theorem inherited_key (key : PublicKey) (shared : SharedObject) :
    Realm.pristine.inherited key.toString ≠ some (.object shared) := by
  have unread : ∀ name ∈ "__proto__" :: builtinNames, PublicKey.ofString name = none := by
    decide +kernel
  have notName : key.toString ∉ "__proto__" :: builtinNames := fun member => by
    have read := unread _ member
    rw [PublicKey.ofString_toString] at read
    cases read
  obtain ⟨notProto, notBuiltin⟩ := not_or.mp (mt List.mem_cons.mpr notName)
  simp [Realm.inherited, notProto, notBuiltin, Realm.pristine]

variable {Node Counter : Type}

abbrev BusRecord (Node Counter : Type) :=
  Record Node (BusClient Counter) (BusInput Counter) (BusOutput Counter)

abbrev Bus (Node Counter : Type) :=
  Network Node (BusClient Counter) (BusInput Counter) (BusOutput Counter)

/-- A client is given only what some client has published under one of its topics. Nothing is said of
how often, or in which order. -/
def Relayed (netName : Node → String) :
    Network.Enabled Node (BusClient Counter) (BusInput Counter) (BusOutput Counter) :=
  fun history node input =>
    match input.event with
    | .deliver reached data => (∃ channel, reached = topic (netName node) channel) ∧
        ∃ record ∈ history, .publish reached data ∈ record.outputs
    | _ => True

section Steps

variable (codec : Codec Counter)

abbrev MatchRecord (Node Counter : Type) :=
  Record Node (MatchManager Counter) (Input Counter) (Output Counter)

-- What a step of a client is to its match manager.
def matchStep (record : BusRecord Node Counter) : Option (MatchRecord Node Counter) :=
  match record.before.events codec record.input with
  | [.match_ env event] =>
    let input : Input Counter := ⟨{ env with realm := .pristine }, event, rfl⟩
    some
      { node := record.node
        before := record.before.client.matchManager
        input
        after := record.after.client.matchManager
        outputs := (record.before.client.matchManager.react input).2 }
  | _ => none

variable {codec}

theorem handle_matchManager (client : RoundTableClient Counter) (event : ClientEvent Counter) :
    (client.handle event).1.matchManager =
      match event with
      | .match_ env event => (client.matchManager.handle { env with realm := client.realm } event).1
      | _ => client.matchManager := by
  cases event with
  | presence now user =>
    rw [RoundTableClient.handle_presence, RoundTableClient.handlePresence_observation]
    split <;> rfl
  | presenceMalformed | chat | chatMalformed | sendChatMessage | addChatListener | match_ => rfl

theorem matchStep_publishes {record : BusRecord Node Counter} {event : ClientEvent Counter}
    (only : record.before.events codec record.input = [event])
    (pristine : record.before.client.realm = .pristine) {msg : Message Counter}
    (shown : .match_ (.publish msg) ∈ (record.before.client.handle event).2) :
    ∃ step, matchStep codec record = some step ∧ .publish msg ∈ step.outputs := by
  cases event with
  | match_ env event =>
    obtain ⟨action, member, same⟩ := List.mem_map.mp shown
    obtain rfl := ClientOutput.match_.inj same
    refine ⟨_, by rw [matchStep, only], ?_⟩
    rw [pristine] at member
    exact member
  | presence now user =>
    rw [RoundTableClient.handle_presence, RoundTableClient.handlePresence_observation] at shown
    split at shown <;> simp at shown
  | presenceMalformed | chat | chatMalformed | sendChatMessage | addChatListener =>
    simp [RoundTableClient.handle] at shown

theorem matchStep_node {record : BusRecord Node Counter} {step : MatchRecord Node Counter}
    (isStep : matchStep codec record = some step) : step.node = record.node := by
  unfold matchStep at isStep
  split at isStep
  next => exact (congrArg Record.node (Option.some.inj isStep)).symm
  next => cases isStep

end Steps

section Records

variable [DecidableEq Node] (codec : Codec Counter) (id : Node → PublicKey)

def moments (history : List (BusRecord Node Counter)) (node : Node) : List (Moment Counter) :=
  Network.recordsOf (fun input => input) (history.filterMap (matchStep codec)) node

/-- What the user of a client had it send, or what its match manager sent for the search that it was
asked for last. -/
def Publication.SentIn (earlier : List (BusRecord Node Counter)) (record : BusRecord Node Counter) :
    Publication Counter → Prop
  | .chat msg => ∃ text, record.input.event = .call (.sendChatMessage text) ∧
      msg = ⟨Text.ofString (id record.node).toString, sanitise text, record.input.time⟩
  | .presence msg => record.input.event = .sendPresenceMessage ∧ msg.user = id record.node
  | .match_ msg => ∃ request step,
      asked (moments codec (earlier ++ [record]) record.node) = some request ∧
        request.Allows (id record.node) msg ∧ matchStep codec record = some step ∧
          .publish msg ∈ step.outputs

theorem Publication.SentIn.sendable {earlier : List (BusRecord Node Counter)}
    {record : BusRecord Node Counter} {publication : Publication Counter}
    (sent : publication.SentIn codec id earlier record) : publication.Sendable := by
  cases publication with
  | chat | presence => trivial
  | match_ msg =>
    obtain ⟨request, -, -, allowed, -⟩ := sent
    exact sendable_of_allows allowed

/-- What an input brings the managers of a client: nothing, a call, or what a client of the same
network has published. -/
inductive Takes (netName : Node → String) (history : List (BusRecord Node Counter)) (node : Node)
    (input : BusInput Counter) : List (ClientEvent Counter) → Prop where
  | announces (announced : input.event = .sendPresenceMessage) : Takes netName history node input []
  | calls (call : Call Counter) (called : input.event = .call call) :
      Takes netName history node input [call.event input.toWorld]
  | hears (earlier later : List (BusRecord Node Counter)) (record : BusRecord Node Counter)
      (split : history = earlier ++ record :: later)
      (sameNet : netName record.node = netName node) (publication : Publication Counter)
      (sent : publication.SentIn codec id earlier record)
      (delivered : input.event = .deliver (topic (netName node) publication.channel)
        (publication.encoded codec)) :
      Takes netName history node input [publication.heard input.toWorld]

end Records

section Network

variable [DecidableEq Node] (codec : Codec Counter) (netName : Node → String)
variable (id : Node → PublicKey)

/-- Every client is honest and keeps the search that it was asked for last, and every record says who
sent what it published. -/
structure Sound (net : Bus Node Counter) : Prop where
  networks : ∀ node, (net.nodes node).netName = netName node
  keys : ∀ node, (net.nodes node).id = id node
  honest : ∀ node, Honest (id node) (net.nodes node).client
  searches : ∀ node request, (net.nodes node).client.matchManager.request = some request →
    asked (moments codec net.history node) = some request
  sent : ∀ earlier record later, net.history = earlier ++ record :: later →
    ∀ reached data, .publish reached data ∈ record.outputs →
      ∃ publication : Publication Counter, publication.SentIn codec id earlier record ∧
        reached = topic (netName record.node) publication.channel ∧
          data = publication.encoded codec

variable {codec netName id}

theorem Takes.plain {history : List (BusRecord Node Counter)} {node : Node}
    {input : BusInput Counter} {events : List (ClientEvent Counter)}
    (takes : Takes codec id netName history node input events) : ∀ event ∈ events, event.Plain := by
  cases takes with
  | announces => simp
  | calls call =>
    rw [List.forall_mem_singleton]
    cases call <;> trivial
  | hears earlier later record split sameNet publication =>
    rw [List.forall_mem_singleton]
    cases publication with
    | presence msg => exact inherited_key msg.user
    | chat | match_ => trivial

theorem Takes.honest {history : List (BusRecord Node Counter)} {node : Node}
    {input : BusInput Counter} {events : List (ClientEvent Counter)}
    (takes : Takes codec id netName history node input events) {client : RoundTableClient Counter}
    (honest : Honest (id node) client) :
    Honest (id node) (RoundTableClient.handle.run client events).1 :=
  RoundTableClient.handle.run_invariant (fun client _ => Honest (id node) client) client events
    honest fun _ _ event member honest => honest.handle (takes.plain event member)

theorem Takes.sends {history : List (BusRecord Node Counter)} {node : Node}
    {input : BusInput Counter} {throws : Nat → Bool} {time text : Text}
    (takes : Takes codec id netName history node input [.sendChatMessage throws time text]) :
    input.event = .call (.sendChatMessage text) ∧ time = input.time := by
  generalize isEvent : [(.sendChatMessage throws time text : ClientEvent Counter)] = events at takes
  cases takes with
  | announces => cases isEvent
  | calls call called =>
    cases call with
    | sendChatMessage msg =>
      cases isEvent
      exact ⟨called, rfl⟩
    | _ => cases isEvent
  | hears earlier later record split sameNet publication => cases publication <;> cases isEvent

variable {net : Bus Node Counter}

theorem moments_rests {record : BusRecord Node Counter} (history : List (BusRecord Node Counter))
    (node : Node) (rests : matchStep codec record = none) :
    moments codec (history ++ [record]) node = moments codec history node := by
  simp [moments, List.filterMap_append, rests]

theorem moments_other {record : BusRecord Node Counter} (history : List (BusRecord Node Counter))
    {node : Node} (other : record.node ≠ node) :
    moments codec (history ++ [record]) node = moments codec history node := by
  cases isStep : matchStep codec record with
  | none => exact moments_rests history node isStep
  | some step =>
    have notNode : step.node ≠ node := matchStep_node isStep ▸ other
    simp [moments, List.filterMap_append, isStep, Network.recordsOf, notNode]

theorem Sound.asked_last (sound : Sound codec netName id net) {node : Node}
    {input : BusInput Counter} {env : Env Counter} {event : Matcher.Event Counter}
    {request : SearchRequest Counter}
    (only : (net.nodes node).events codec input = [.match_ env event])
    (search : (event.asks (net.nodes node).client.matchManager).or
      (net.nodes node).client.matchManager.request = some request) :
    asked (moments codec (net.history ++ [net.answer (BusClient.react codec) node input]) node) =
      some request := by
  simp only [moments, List.filterMap_append, List.filterMap_cons, List.filterMap_nil, matchStep,
    Network.answer, only, Network.recordsOf, List.filter_append, List.map_append]
  simp only [List.filter_cons, decide_true, if_true, List.filter_nil, List.map_cons, List.map_nil]
  rw [asked_snoc]
  cases asks : event.asks (net.nodes node).client.matchManager with
  | some started => simpa [asks] using search
  | none =>
    rw [asks, Option.none_or] at search
    exact sound.searches node request search

theorem Sound.takes (sound : Sound codec netName id net) {node : Node} {input : BusInput Counter}
    (allowed : Relayed netName net.history node input) :
    Takes codec id netName net.history node input ((net.nodes node).events codec input) := by
  unfold Relayed at allowed
  unfold BusClient.events
  cases event : input.event with
  | sendPresenceMessage => exact .announces event
  | call call => exact .calls call event
  | deliver reached data =>
    simp only [event] at allowed
    obtain ⟨⟨channel, rfl⟩, record, member, published⟩ := allowed
    obtain ⟨earlier, later, split⟩ := List.append_of_mem member
    obtain ⟨publication, sent, reaches, rfl⟩ := sound.sent earlier record later split _ _ published
    obtain ⟨sameNet, rfl⟩ := topic_inj.mp reaches
    simp only [sound.networks, subscribed_topic, List.map_singleton,
      receive_publication codec input.toWorld (sent.sendable codec id)]
    exact .hears earlier later record split sameNet.symm publication sent event

theorem Sound.searching (sound : Sound codec netName id net) {node : Node}
    {input : BusInput Counter} (allowed : Relayed netName net.history node input)
    {request : SearchRequest Counter}
    (kept : ((net.nodes node).react codec input).1.client.matchManager.request = some request) :
    asked (moments codec (net.history ++ [net.answer (BusClient.react codec) node input]) node) =
      some request := by
  have takes := sound.takes allowed
  have rests (none : matchStep codec (net.answer (BusClient.react codec) node input) = none)
      (same : ((net.nodes node).react codec input).1.client.matchManager =
        (net.nodes node).client.matchManager) :
      asked (moments codec (net.history ++ [net.answer (BusClient.react codec) node input]) node) =
        some request := by
    rw [moments_rests net.history node none]
    exact sound.searches node request (same ▸ kept)
  have handled {event : ClientEvent Counter}
      (only : (net.nodes node).events codec input = [event]) :
      asked (moments codec (net.history ++ [net.answer (BusClient.react codec) node input]) node) =
        some request := by
    have after := handle_matchManager (net.nodes node).client event
    simp only [BusClient.react, only, Machine.run_singleton] at kept rests
    cases event with
    | match_ env event =>
      have honest := sound.honest node
      have effect := (net.nodes node).client.matchManager.react_effect honest.inv
        ⟨{ env with realm := (net.nodes node).client.realm }, event, honest.pristine⟩
      rw [after] at kept
      exact sound.asked_last only (effect.request request kept)
    | presence | presenceMalformed | chat | chatMalformed | sendChatMessage | addChatListener =>
      exact rests (by simp [matchStep, Network.answer, only]) after
  generalize isEvents : (net.nodes node).events codec input = events at takes
  cases takes with
  | announces =>
    exact rests (by simp [matchStep, Network.answer, isEvents]) (by simp [BusClient.react, isEvents])
  | calls call => exact handled isEvents
  | hears => exact handled isEvents

theorem Sound.sentIn (sound : Sound codec netName id net) {node : Node} {input : BusInput Counter}
    {event : ClientEvent Counter} (takes : Takes codec id netName net.history node input [event])
    (only : (net.nodes node).events codec input = [event]) {output : ClientOutput Counter}
    (member : output ∈ ((net.nodes node).client.handle event).2)
    {publication : Publication Counter} (isPublication : Wire.publication output = some publication) :
    publication.SentIn codec id net.history (net.answer (BusClient.react codec) node input) := by
  have of := (sound.honest node).publishes member isPublication
  cases publication with
  | presence msg => exact of.elim
  | chat msg =>
    obtain ⟨throws, time, text, rfl, rfl⟩ := of
    obtain ⟨called, rfl⟩ := Takes.sends takes
    exact ⟨text, called, rfl⟩
  | match_ msg =>
    obtain ⟨env, matchEvent, request, rfl, search, allows⟩ := of
    obtain ⟨step, isStep, sends⟩ :
        ∃ step, matchStep codec (net.answer (BusClient.react codec) node input) = some step ∧
          .publish msg ∈ step.outputs := by
      refine matchStep_publishes only (sound.honest node).pristine ?_
      cases output with
      | presenceUncaught => cases isPublication
      | chat output => cases output <;> cases isPublication
      | match_ action =>
        cases action <;> cases isPublication
        exact member
    exact ⟨request, step, sound.asked_last only search, allows, isStep, sends⟩

theorem Sound.publishes (sound : Sound codec netName id net) {node : Node}
    {input : BusInput Counter} (allowed : Relayed netName net.history node input)
    {reached : String} {data : List UInt8}
    (published : .publish reached data ∈ (net.answer (BusClient.react codec) node input).outputs) :
    ∃ publication : Publication Counter,
      publication.SentIn codec id net.history
          (net.answer (BusClient.react codec) node input) ∧
        reached = topic (netName node) publication.channel ∧ data = publication.encoded codec := by
  have takes := sound.takes allowed
  have written {event : ClientEvent Counter}
      (only : (net.nodes node).events codec input = [event])
      (shown : .publish reached data ∈
        ((net.nodes node).client.handle event).2.map ((net.nodes node).write codec)) :
      ∃ publication : Publication Counter,
        publication.SentIn codec id net.history
          (net.answer (BusClient.react codec) node input) ∧
          reached = topic (netName node) publication.channel ∧
            data = publication.encoded codec := by
    obtain ⟨output, member, isWritten⟩ := List.mem_map.mp shown
    unfold BusClient.write at isWritten
    cases isPublication : publication output with
    | none => simp [isPublication] at isWritten
    | some publication =>
      simp only [isPublication, BusClient.pub, BusOutput.publish.injEq, sound.networks] at isWritten
      obtain ⟨rfl, rfl⟩ := isWritten
      exact ⟨publication, sound.sentIn (only ▸ takes) only member isPublication, rfl, rfl⟩
  simp only [Network.answer, BusClient.react] at published
  generalize isEvents : (net.nodes node).events codec input = events at takes published
  cases takes with
  | announces announced =>
    simp only [announced, Machine.run_nil, List.map_nil, List.mem_singleton, BusClient.pub,
      BusOutput.publish.injEq, sound.networks, sound.keys] at published
    obtain ⟨rfl, rfl⟩ := published
    exact ⟨.presence ⟨id node⟩, ⟨announced, rfl⟩, rfl, rfl⟩
  | calls call called =>
    simp only [called, Machine.run_singleton] at published
    exact written isEvents published
  | hears earlier later record split sameNet publication sent delivered =>
    simp only [delivered, Machine.run_singleton] at published
    exact written isEvents published

theorem Sound.advance (sound : Sound codec netName id net) {node : Node} {input : BusInput Counter}
    (allowed : Relayed netName net.history node input) :
    Sound codec netName id (net.advance (BusClient.react codec) node input) where
  networks other := by
    by_cases same : other = node
    · subst same
      rw [Network.advance_self]
      exact sound.networks other
    · rw [Network.advance_other _ _ _ same]
      exact sound.networks other
  keys other := by
    by_cases same : other = node
    · subst same
      rw [Network.advance_self]
      exact sound.keys other
    · rw [Network.advance_other _ _ _ same]
      exact sound.keys other
  honest other := by
    by_cases same : other = node
    · subst same
      rw [Network.advance_self]
      exact (sound.takes allowed).honest (sound.honest other)
    · rw [Network.advance_other _ _ _ same]
      exact sound.honest other
  searches other request kept := by
    rw [Network.advance_history]
    by_cases same : other = node
    · subst same
      rw [Network.advance_self] at kept
      exact sound.searching allowed kept
    · rw [Network.advance_other _ _ _ same] at kept
      rw [moments_other net.history (Ne.symm same)]
      exact sound.searches other request kept
  sent earlier record later split reached data published := by
    rw [Network.advance_history] at split
    rcases List.eq_nil_or_concat later with rfl | ⟨rest, last, rfl⟩
    · obtain ⟨rfl, rfl⟩ := List.append_inj' split rfl |>.imp_right (List.singleton_inj.mp ·)
      exact sound.publishes allowed published
    · rw [List.concat_eq_append, ← List.cons_append, ← List.append_assoc] at split
      exact sound.sent earlier record rest (List.append_inj' split rfl).1 reached data published

variable [IntCast Counter]

variable (codec netName id) in
abbrev Running : Bus Node Counter → Prop :=
  Network.Reachable (BusClient.react codec) (Relayed netName) fun node =>
    .new (netName node) (id node)

theorem Running.sound (running : Running codec netName id net) : Sound codec netName id net := by
  induction running with
  | start =>
    exact
      { networks := fun _ => rfl
        keys := fun _ => rfl
        honest := fun node => ⟨rfl, rfl, MatchManager.new_inv _, rfl⟩
        searches := fun _ _ impossible => by cases impossible
        sent := by simp }
  | step net node input running allowed ih => exact ih.advance allowed

/-- The bytes that are delivered to a client are handled as what a client of its network has sent: its
user, or its match manager for the search that it was asked for last. -/
theorem Running.hears (running : Running codec netName id net) {node : Node}
    {input : BusInput Counter} (allowed : Relayed netName net.history node input) {reached : String}
    {data : List UInt8} (delivered : input.event = .deliver reached data) :
    ∃ earlier record later, net.history = earlier ++ record :: later ∧
      netName record.node = netName node ∧
        ∃ publication : Publication Counter, publication.SentIn codec id earlier record ∧
          (net.nodes node).events codec input = [publication.heard input.toWorld] := by
  have takes := (Running.sound running).takes allowed
  generalize (net.nodes node).events codec input = events at takes
  cases takes with
  | announces event | calls call event => cases delivered.symm.trans event
  | hears earlier later record split sameNet publication sent =>
    exact ⟨earlier, record, later, split, sameNet, publication, sent, rfl⟩

/-- What the clients of one network do, they would also do if there were no others on the bus. -/
theorem Running.network_alone (running : Running codec netName id net) (name : String) :
    Running codec netName id
      (net.restrict (fun node => .new (netName node) (id node)) fun node => netName node = name) := by
  apply Network.Reachable.restrict (fun net node input running kept allowed => ?_) running
  unfold Relayed at allowed ⊢
  cases event : input.event with
  | sendPresenceMessage | call => trivial
  | deliver reached data =>
    simp only [event] at allowed ⊢
    obtain ⟨⟨channel, rfl⟩, record, member, published⟩ := allowed
    obtain ⟨earlier, later, split⟩ := List.append_of_mem member
    obtain ⟨publication, -, reaches, -⟩ :=
      (Running.sound running).sent earlier record later split _ _ published
    have sameNet := (topic_inj.mp reaches).1
    simp only [decide_eq_true_eq] at kept
    exact ⟨⟨channel, rfl⟩, record, List.mem_filter.mpr ⟨member, by simp [← sameNet, kept]⟩, published⟩

section Matches

def Local (netName : Node → String) :
    Network.Enabled Node (MatchManager Counter) (PeerInput Counter) (Output Counter) :=
  fun history peer step =>
    Lossy history peer step ∧ ∀ packet sender msg, step.packet = some packet →
      published history packet = some (sender, msg) → netName sender = netName peer

def PeerRecord.step (record : PeerRecord Node Counter) : MatchRecord Node Counter where
  node := record.node
  before := record.before
  input := record.input.toInput
  after := record.after
  outputs := record.outputs

omit [DecidableEq Node] [IntCast Counter] in
theorem exists_packet {history : List (PeerRecord Node Counter)} {record : PeerRecord Node Counter}
    {msg : Message Counter} (member : record ∈ history) (sent : .publish msg ∈ record.outputs) :
    ∃ packet, published history packet = some (record.node, msg) := by
  obtain ⟨step, found⟩ := List.getElem?_of_mem member
  obtain ⟨place, output⟩ := List.getElem?_of_mem sent
  exact ⟨(step, place), published_iff.mpr ⟨record, found, rfl, output⟩⟩

-- Managers that have done, and are, what they have done and are on the bus.
structure Carries (codec : Codec Counter) (net : Bus Node Counter) (peers : Peers Node Counter) :
    Prop where
  nodes : ∀ node, peers.nodes node = (net.nodes node).client.matchManager
  history : peers.history.map PeerRecord.step = net.history.filterMap (matchStep codec)

variable {peers : Peers Node Counter} {node : Node} {input : BusInput Counter}

omit [IntCast Counter] in
theorem Carries.unmoved (carries : Carries codec net peers)
    (kept : ((net.nodes node).react codec input).1.client.matchManager =
      (net.nodes node).client.matchManager)
    (rests : matchStep codec (net.answer (BusClient.react codec) node input) = none) :
    Carries codec (net.advance (BusClient.react codec) node input) peers where
  nodes other := by
    by_cases same : other = node
    · subst same
      rw [Network.advance_self, kept]
      exact carries.nodes other
    · rw [Network.advance_other _ _ _ same]
      exact carries.nodes other
  history := by
    simp [Network.advance_history, List.filterMap_append, rests, carries.history]

omit [IntCast Counter] in
theorem Carries.moved (carries : Carries codec net peers) {env : Env Counter}
    {event : Matcher.Event Counter} (only : (net.nodes node).events codec input = [.match_ env event])
    (pristine : (net.nodes node).client.realm = .pristine) (packet : Option Packet) :
    Carries codec (net.advance (BusClient.react codec) node input)
      (peers.advance MatchManager.peer node
        ⟨⟨{ env with realm := .pristine }, event, rfl⟩, packet⟩) where
  nodes other := by
    by_cases same : other = node
    · subst same
      rw [Network.advance_self, Network.advance_self, carries.nodes]
      simp only [BusClient.react, only, Machine.run_singleton, handle_matchManager, pristine]
      rfl
    · rw [Network.advance_other _ _ _ same, Network.advance_other _ _ _ same]
      exact carries.nodes other
  history := by
    simp only [Network.advance_history, List.map_append, List.filterMap_append, carries.history]
    simp [matchStep, only, PeerRecord.step, Network.answer, MatchManager.peer, carries.nodes,
      BusClient.react, handle_matchManager, pristine, MatchManager.react]

/-- On the bus the match managers run as peers that exchange their messages, and no bytes. -/
theorem Running.carried (running : Running codec netName id net) :
    ∃ peers : Peers Node Counter, Reaches id (Local netName) peers ∧ Carries codec net peers := by
  refine running.simulated (Carries codec) ⟨fun _ => rfl, rfl⟩ ?_
  intro net peers node input running reached carries allowed
  have sound := Running.sound running
  have takes := sound.takes allowed
  have pristine := (sound.honest node).pristine
  have rests {events : List (ClientEvent Counter)}
      (isEvents : (net.nodes node).events codec input = events)
      (others : ∀ env event, .match_ env event ∉ events) :
      Carries codec (net.advance (BusClient.react codec) node input) peers := by
    apply carries.unmoved
    · rw [BusClient.react, isEvents]
      refine RoundTableClient.handle.run_invariant
        (fun client _ => client.matchManager = (net.nodes node).client.matchManager) _ events rfl
        fun client _ event member kept => ?_
      rw [handle_matchManager]
      cases event with
      | match_ env event => exact absurd member (others env event)
      | _ => exact kept
    · simp only [matchStep, Network.answer, isEvents]
      split
      next env event => exact absurd (List.mem_singleton_self _) (others env event)
      next => rfl
  generalize isEvents : (net.nodes node).events codec input = events at takes
  cases takes with
  | announces => exact .inl (rests isEvents (by simp))
  | calls call =>
    cases call with
    | sendChatMessage | addChatListener => exact .inl (rests isEvents (by simp [Call.event]))
    | addMatchListener | findMatch | stopMatch | poll | checkTimeouts =>
      refine .inr ⟨_, ⟨?_, by simp⟩, carries.moved isEvents pristine none⟩
      trivial
  | hears earlier later record split sameNet publication sent =>
    have member : record ∈ net.history := by simp [split]
    cases publication with
    | chat | presence => exact .inl (rests isEvents (by simp [Publication.heard]))
    | match_ msg =>
      obtain ⟨-, step, -, -, isStep, sends⟩ := sent
      have carried : step ∈ peers.history.map PeerRecord.step :=
        carries.history ▸ List.mem_filterMap.mpr ⟨record, member, isStep⟩
      obtain ⟨earlier, isEarlier, rfl⟩ := List.mem_map.mp carried
      obtain ⟨packet, isPublished⟩ := exists_packet isEarlier sends
      refine .inr ⟨_, ⟨?_, ?_⟩, carries.moved isEvents pristine (some packet)⟩
      · exact ⟨packet, earlier.node, rfl, isPublished⟩
      intro packet' sender msg' same alike
      obtain rfl := Option.some.inj same
      obtain ⟨rfl, -⟩ := Prod.mk.inj (Option.some.inj (isPublished.symm.trans alike))
      exact (congrArg netName (matchStep_node isStep)).trans sameNet

end Matches

end Network

section Small

def BusInput.still (now : Int) (event : BusEvent Int) : BusInput Int := ⟨.still now, event⟩

def smallNet (node : Nat) : String := if node = 2 then "bar" else "table"

def smallKey (node : Nat) : PublicKey := .small (UInt8.ofNat (node + 1))

def smallBus : Bus Nat Int := ⟨fun node => .new (smallNet node) (smallKey node), []⟩

def tableSteps : List (Nat × BusInput Int) :=
  let hears (now : Int) (publication : Publication Int) : Nat × BusInput Int :=
    (1, .still now
      (.deliver (topic "table" publication.channel) (publication.encoded smallCodec)))
  [(0, .still 0 .sendPresenceMessage),
    (0, .still 1 (.call (.sendChatMessage (Text.ofString "hi")))),
    (0, .still 2 (.call (.findMatch ["chess"] 1 0))),
    (2, .still 3 (.call (.findMatch ["chess"] 1 0))),
    hears 4 (.presence ⟨smallKey 0⟩),
    hears 5 (.chat
      ⟨Text.ofString (smallKey 0).toString, Text.ofString "hi", Text.ofString "12:00"⟩),
    hears 6 (.match_ (.advertise ⟨smallKey 0, .string "chess", 1⟩)),
    (1, .still 7 (.call (.findMatch ["chess"] 2 0)))]

theorem tableSteps_relayed :
    Network.Playable (BusClient.react smallCodec) (Relayed smallNet) smallBus tableSteps := by
  refine ⟨trivial, trivial, trivial, trivial, ⟨⟨_, rfl⟩, ?_⟩, ⟨⟨_, rfl⟩, ?_⟩, ⟨⟨_, rfl⟩, ?_⟩, trivial,
    trivial⟩
  all_goals decide +kernel

theorem tableSteps_running :
    Running smallCodec smallNet smallKey (smallBus.play (BusClient.react smallCodec) tableSteps) :=
  Network.reachable_play _ .start tableSteps_relayed

theorem hears_announced :
    let net := smallBus.play (BusClient.react smallCodec) (tableSteps.take 1)
    let announced : Publication Int := .presence ⟨smallKey 0⟩
    let input := BusInput.still 4
      (.deliver (topic "table" .presence) (announced.encoded smallCodec))
    ∃ earlier record later, net.history = earlier ++ record :: later ∧
      smallNet record.node = smallNet 1 ∧
        ∃ publication : Publication Int, publication.SentIn smallCodec smallKey earlier record ∧
          (net.nodes 1).events smallCodec input = [publication.heard input.toWorld] := by
  intro net announced input
  have playable : Network.Playable (BusClient.react smallCodec) (Relayed smallNet) smallBus
      (tableSteps.take 1) := ⟨trivial, trivial⟩
  have allowed : Relayed smallNet net.history 1 input := ⟨⟨.presence, rfl⟩, by decide +kernel⟩
  exact Running.hears (Network.reachable_play _ .start playable) allowed rfl

theorem network_alone_table :
    Running smallCodec smallNet smallKey
      ((smallBus.play (BusClient.react smallCodec) tableSteps).restrict
        (fun node => .new (smallNet node) (smallKey node)) fun node => smallNet node = "table") :=
  Running.network_alone tableSteps_running "table"

end Small

end RoundTable.Wire
