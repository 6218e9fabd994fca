import RoundTable.Matcher.Invariant

set_option autoImplicit false

namespace RoundTable.Matcher

open Script Reactive

variable {Counter : Type}

theorem mem_visible_publish {outputs : List (Output Counter)} {msg : Message Counter} :
    .publish msg ∈ visible outputs ↔ .publish msg ∈ outputs := by
  simp [visible, Output.visible]

theorem mem_visible_callback {outputs : List (Output Counter)} {agent : MatchAgent Counter}
    {callback : Callback} {result : Option (MatchState Counter)} :
    .callback agent callback result ∈ visible outputs ↔
      .callback agent callback result ∈ outputs := by
  simp [visible, Output.visible]

def Completes (outputs : List (Output Counter)) (agent : MatchAgent Counter)
    (result : MatchState Counter) : Prop :=
  ∃ callback, .callback agent callback (some result) ∈ outputs

-- The search of `agent` ends as the host of `result`, which `claim` was the first to claim.
structure Hosts (outputs : List (Output Counter)) (agent : MatchAgent Counter)
    (result : MatchState Counter) (claim : PublicKey × Counter) : Prop where
  completes : Completes outputs agent result
  serving : agent.state = .servingWaitingClaims
  current : agent.matchId = some result.matchId
  first : result.claimsSeen.head? = some claim
  acked : .publish (.ack ⟨result.matchId, claim.1⟩) ∈ outputs

theorem completes_visible {outputs : List (Output Counter)} {agent : MatchAgent Counter}
    {result : MatchState Counter} :
    Completes (visible outputs) agent result ↔ Completes outputs agent result := by
  simp only [Completes, mem_visible_callback]

theorem hosts_visible {outputs : List (Output Counter)} {agent : MatchAgent Counter}
    {result : MatchState Counter} {claim : PublicKey × Counter} :
    Hosts (visible outputs) agent result claim ↔ Hosts outputs agent result claim := by
  constructor
  · rintro ⟨completes, serving, current, first, acked⟩
    exact ⟨completes_visible.mp completes, serving, current, first, mem_visible_publish.mp acked⟩
  · rintro ⟨completes, serving, current, first, acked⟩
    exact ⟨completes_visible.mpr completes, serving, current, first, mem_visible_publish.mpr acked⟩

@[simp] theorem acknowledged_matchId (entry : MatchState Counter) (user : PublicKey) :
    (entry.acknowledged user).matchId = entry.matchId := by
  unfold MatchState.acknowledged
  split <;> rfl

@[simp] theorem acknowledged_advertiser (entry : MatchState Counter) (user : PublicKey) :
    (entry.acknowledged user).advertiser = entry.advertiser := by
  unfold MatchState.acknowledged
  split <;> rfl

@[simp] theorem acknowledged_match (entry : MatchState Counter) (user : PublicKey) :
    (entry.acknowledged user).match_ = entry.match_ := by
  unfold MatchState.acknowledged
  split <;> rfl

@[simp] theorem acknowledged_claimsSeen (entry : MatchState Counter) (user : PublicKey) :
    (entry.acknowledged user).claimsSeen = entry.claimsSeen := by
  unfold MatchState.acknowledged
  split <;> rfl

theorem mem_acks {entry : MatchState Counter} {user : PublicKey} {output : Output Counter} :
    output ∈ entry.acks user ↔ output = .publish (.ack ⟨entry.matchId, user⟩) := by
  unfold MatchState.acks
  split <;> simp

theorem callback_mem_joined {result result' : MatchState Counter} {agent agent' : MatchAgent Counter}
    {callback callback' : Callback} :
    Output.callback agent' callback' (some result') ∈ [.callback agent callback (some result)] ↔
      agent' = agent ∧ callback' = callback ∧ result' = result := by
  simp

theorem callback_mem_hosted {msg msg' : Message Counter} {result result' : MatchState Counter}
    {agent agent' : MatchAgent Counter} {callback callback' : Callback} :
    Output.callback agent' callback' (some result') ∈
      [.publish msg, .publish msg', .callback agent callback (some result)] ↔
        agent' = agent ∧ callback' = callback ∧ result' = result := by
  simp

theorem callback_mem_fill {msg : MatchAdvertiseMessage Counter}
    {entry result result' : MatchState Counter} {user : PublicKey}
    {agent agent' : MatchAgent Counter} {callback callback' : Callback} :
    .callback agent' callback' (some result') ∈
      .publish (.advertise msg) :: entry.acks user ++ [.callback agent callback (some result)] ↔
        agent' = agent ∧ callback' = callback ∧ result' = result := by
  simp [mem_acks]

theorem advertised_held {map : MatchMap Counter} {msg : MatchAdvertiseMessage Counter} {seen : Int}
    (claimed : (map.advertised msg seen).claimsSeen ≠ []) :
    ∃ entry, map.lookup (getMatchID msg.advertiser msg.match_) = some entry ∧
      map.advertised msg seen = { entry with lastSeen := seen } := by
  unfold MatchMap.advertised at *
  cases held : map.lookup (getMatchID msg.advertiser msg.match_) with
  | none => simp [held, MatchState.new] at claimed
  | some entry => exact ⟨entry, rfl, rfl⟩

structure Hosting (manager : MatchManager Counter) (event : Event Counter)
    (actions : List (Output Counter)) (agent : MatchAgent Counter) (result : MatchState Counter)
    (claim : PublicKey × Counter) : Prop extends Hosts actions agent result claim where
  id : agent.id = manager.matchAgent.id
  own : ∃ match_, result.matchId = getMatchID manager.matchAgent.id match_
  held : ∃ entry, manager.matchMap.lookup result.matchId = some entry ∧
    entry.advertiser = result.advertiser ∧ entry.match_ = result.match_ ∧
      (claim ∈ entry.claimsSeen ∨ event = .receive (.claim ⟨result.matchId, claim.1, claim.2⟩))

structure Joining (manager : MatchManager Counter) (event : Event Counter)
    (agent : MatchAgent Counter) (result : MatchState Counter) : Prop where
  acked : event = .receive (.ack ⟨result.matchId, manager.matchAgent.id⟩)
  same : agent = manager.matchAgent
  joins : manager.Joins result.matchId
  held : ∃ entry, manager.matchMap.lookup result.matchId = some entry ∧
    entry.advertiser = result.advertiser ∧ entry.match_ = result.match_

section Search

variable {manager after : MatchManager Counter} {targetMatch : List String} {counter : Counter}
variable {callback : Callback} {actions : List (Output Counter)}
variable (search : Search manager targetMatch counter callback actions after)

include search

theorem Search.hosting (keyed : manager.matchMap.Keyed) (event : Event Counter)
    {agent : MatchAgent Counter} {result : MatchState Counter}
    (completes : Completes actions agent result) :
    ∃ claim, Hosting manager event actions agent result claim ∧ agent.counter = counter := by
  obtain ⟨callback', called⟩ := completes
  cases search with
  | join | serve => simp at called
  | fill entry now seen user claimCounter rest closed own claims =>
    obtain ⟨rfl, rfl, rfl⟩ := callback_mem_fill.mp called
    have named := advertised_matchId keyed (manager.advert targetMatch counter) seen
    obtain ⟨held, isHeld, refreshed⟩ := advertised_held (by rw [← own, claims]; simp)
    rw [← own] at named refreshed
    refine ⟨(user, claimCounter), ⟨⟨⟨_, called⟩, ?serving, ?current, ?first, ?acked⟩, ?id, ?own,
      ?held⟩, rfl⟩
    case serving => rfl
    case current => simp [MatchManager.serving]
    case first => simp [claims]
    case acked => simp [mem_acks]
    case id => rfl
    case own => exact ⟨_, (acknowledged_matchId ..).trans named⟩
    case held =>
      rw [← named] at isHeld
      refine ⟨held, by rw [acknowledged_matchId]; exact isHeld, ?_, ?_, .inl ?_⟩
      · rw [acknowledged_advertiser, refreshed]
      · rw [acknowledged_match, refreshed]
      · rw [refreshed] at claims
        rw [claims]
        exact List.mem_cons_self

theorem Search.acked {msg : MatchAckMessage} (acked : .publish (.ack msg) ∈ actions) :
    ∃ agent result, Completes actions agent result ∧ result.matchId = msg.matchId ∧
      result.claimsSeen.head?.map (·.1) = some msg.user := by
  cases search with
  | join | serve => simp at acked
  | fill entry now seen user claimCounter rest closed own claims =>
    obtain rfl : msg = ⟨entry.matchId, user⟩ := by simpa [mem_acks] using acked
    exact ⟨_, entry.acknowledged user,
      ⟨callback, List.mem_append_right _ (List.mem_singleton_self _)⟩, by simp, by simp [claims]⟩

theorem Search.advertised {msg : MatchAdvertiseMessage Counter}
    (published : .publish (.advertise msg) ∈ actions) :
    msg = manager.advert targetMatch counter := by
  cases search with
  | join => simp at published
  | serve => simpa using published
  | fill => simpa [mem_acks] using published

theorem Search.claimed {msg : MatchClaimMessage Counter}
    (published : .publish (.claim msg) ∈ actions) :
    actions = [.publish (.claim msg)] ∧ msg.user = manager.matchAgent.id ∧
      msg.counter = counter := by
  cases search with
  | join =>
    obtain rfl : msg = _ := by simpa using published
    exact ⟨rfl, rfl, rfl⟩
  | serve => simp at published
  | fill => simp [mem_acks] at published

end Search

section Effect

variable {manager after : MatchManager Counter} {event : Event Counter}
variable {actions : List (Output Counter)} (effect : Effect manager event actions after)

include effect

theorem Effect.completes (inv : manager.Inv) {agent : MatchAgent Counter}
    {result : MatchState Counter} (completes : Completes actions agent result) :
    (∃ claim, Hosting manager event actions agent result claim) ∨
      Joining manager event agent result := by
  obtain ⟨callback', called⟩ := completes
  cases effect with
  | quiet | listening | expired | advertised | withdrawn | claimed | filled | unadvertised | stopped =>
    simp at called
  | hosted entry user counter callback held first serves waiting =>
    obtain ⟨rfl, rfl, rfl⟩ := callback_mem_hosted.mp called
    left
    have consistent := inv.consistent
    simp only [MatchAgent.Consistent, serves.1] at consistent
    obtain ⟨targets, _, -, current, -⟩ := consistent
    refine ⟨(user, counter), ⟨⟨⟨_, called⟩, serves.1, serves.2, ?first, ?acked⟩, rfl, ?own, ?held⟩⟩
    case first => simp [MatchState.pushClaim, first]
    case acked => simp
    case own => exact ⟨Matcher.advertised targets, Option.some.inj (serves.2.symm.trans current)⟩
    case held => exact ⟨entry, held, rfl, rfl, .inr rfl⟩
  | joined entry callback held joins waiting =>
    obtain ⟨rfl, rfl, rfl⟩ := callback_mem_joined.mp called
    exact .inr ⟨rfl, rfl, joins, entry, held, rfl, rfl⟩
  | passedOver entry user targetMatch callback actions after held joins other targets waiting search =>
    left
    have keyed : (manager.put (entry.pushAck user)).matchMap.Keyed := inv.keyed.insert rfl
    obtain ⟨claim, hosting, -⟩ := search.hosting keyed (.receive (.ack ⟨entry.matchId, user⟩))
      ⟨_, called⟩
    refine ⟨claim, ⟨hosting.toHosts, hosting.id, hosting.own, ?_⟩⟩
    obtain ⟨found, isFound, advertiser, game, claimed⟩ := hosting.held
    simp only [MatchManager.put, AList.lookup_insert_of] at isFound
    split at isFound
    next same =>
      -- the acknowledged entry differs from the one held only in its acks
      obtain rfl := Option.some.inj isFound
      exact ⟨entry, by rw [same]; exact held, advertiser, game, claimed⟩
    next => exact ⟨found, isFound, advertiser, game, claimed⟩
  | started targetMatch counter callback actions after idle search =>
    obtain ⟨claim, hosting, -⟩ := search.hosting inv.keyed _ ⟨_, called⟩
    exact .inl ⟨claim, hosting⟩
  | restarted time targetMatch callback actions after due targets waiting search =>
    obtain ⟨claim, hosting, -⟩ := search.hosting inv.keyed _ ⟨_, called⟩
    exact .inl ⟨claim, hosting⟩

theorem Effect.completes_serving (inv : manager.Inv) {agent : MatchAgent Counter}
    {result : MatchState Counter} (completes : Completes actions agent result)
    (serving : agent.state = .servingWaitingClaims) :
    ∃ claim, Hosting manager event actions agent result claim := by
  rcases effect.completes inv completes with hosting | joining
  · exact hosting
  · have joins := joining.joins.1
    rw [← joining.same, serving] at joins
    cases joins

theorem Effect.hosts (inv : manager.Inv) {agent : MatchAgent Counter} {result : MatchState Counter}
    {claim : PublicKey × Counter} (hosts : Hosts actions agent result claim) :
    Hosting manager event actions agent result claim := by
  obtain ⟨claim', hosting⟩ := effect.completes_serving inv hosts.completes hosts.serving
  obtain rfl := Option.some.inj (hosting.first.symm.trans hosts.first)
  exact hosting

-- Every ack that is published acknowledges the first claim on a match that is hosted.
theorem Effect.acked (inv : manager.Inv) {msg : MatchAckMessage}
    (acked : .publish (.ack msg) ∈ actions) :
    ∃ agent result claim, Hosting manager event actions agent result claim ∧
      msg = ⟨result.matchId, claim.1⟩ := by
  -- it is enough to find an end with that match whose first claim is by that user
  suffices ended : ∃ agent result, Completes actions agent result ∧ result.matchId = msg.matchId ∧
      result.claimsSeen.head?.map (·.1) = some msg.user ∧ ¬Joining manager event agent result by
    obtain ⟨agent, result, completes, sameMatch, first, notJoining⟩ := ended
    rcases effect.completes inv completes with ⟨claim, hosting⟩ | joining
    · rw [hosting.first] at first
      exact ⟨agent, result, claim, hosting, by
        rw [sameMatch, show claim.1 = msg.user from Option.some.inj first]⟩
    · exact absurd joining notJoining
  cases effect with
  | quiet | listening | expired | advertised | withdrawn | claimed | filled | joined | unadvertised
    | stopped => simp at acked
  | hosted entry user counter callback held first serves waiting =>
    obtain rfl : msg = ⟨entry.matchId, user⟩ := by simpa using acked
    exact ⟨manager.matchAgent, (entry.pushClaim user counter).pushAck user, ⟨callback, by simp⟩, by
      simp, by simp [MatchState.pushClaim, first], fun joining => by cases joining.acked⟩
  | passedOver entry user targetMatch callback actions after held joins other targets waiting search =>
    obtain ⟨agent, result, ended, sameMatch, first⟩ := search.acked acked
    refine ⟨agent, result, ended, sameMatch, first, fun joining => other ?_⟩
    have same : entry.matchId = result.matchId ∧ user = manager.matchAgent.id := by
      simpa using joining.acked
    exact same.2
  | started _ _ _ _ _ _ search | restarted _ _ _ _ _ _ _ _ search =>
    obtain ⟨agent, result, ended, sameMatch, first⟩ := search.acked acked
    exact ⟨agent, result, ended, sameMatch, first, fun joining => by cases joining.acked⟩

theorem Effect.advertises {msg : MatchAdvertiseMessage Counter}
    (published : .publish (.advertise msg) ∈ actions) :
    msg.advertiser = manager.matchAgent.id := by
  cases effect with
  | passedOver _ _ _ _ _ _ _ _ _ _ _ search | started _ _ _ _ _ _ search
    | restarted _ _ _ _ _ _ _ _ search => rw [search.advertised published]; rfl
  | _ => simp at published

end Effect

-- A packet is named by the step that published it and its place among the outputs of the step.
abbrev Packet := Nat × Nat

structure PeerInput (Counter : Type) extends Input Counter where
  packet : Option Packet

namespace MatchManager

def peer : Machine (MatchManager Counter) (PeerInput Counter) (Output Counter) :=
  fun manager step => manager.react step.toInput

end MatchManager

section Network

variable {Peer : Type}

abbrev PeerRecord (Peer Counter : Type) :=
  Record Peer (MatchManager Counter) (PeerInput Counter) (Output Counter)

abbrev Peers (Peer Counter : Type) :=
  Network Peer (MatchManager Counter) (PeerInput Counter) (Output Counter)

def published (history : List (PeerRecord Peer Counter)) (packet : Packet) :
    Option (Peer × Message Counter) :=
  match history[packet.1]? with
  | none => none
  | some record =>
    match record.outputs[packet.2]? with
    | some (.publish msg) => some (record.node, msg)
    | _ => none

/-- A peer receives nothing but what some peer has published. Nothing is said of how often. -/
def Lossy : Network.Enabled Peer (MatchManager Counter) (PeerInput Counter) (Output Counter) :=
  fun history _ step =>
    match step.event with
    | .receive msg => ∃ packet sender, step.packet = some packet ∧
        published history packet = some (sender, msg)
    | .receiveMalformed => False
    | _ => True

theorem published_iff {history : List (PeerRecord Peer Counter)} {packet : Packet} {sender : Peer}
    {msg : Message Counter} :
    published history packet = some (sender, msg) ↔ ∃ record, history[packet.1]? = some record ∧
      record.node = sender ∧ record.outputs[packet.2]? = some (.publish msg) := by
  unfold published
  cases found : history[packet.1]? with
  | none => simp
  | some record =>
    cases output : record.outputs[packet.2]? with
    | none => simp [output]
    | some output' => cases output' <;> simp [output]

theorem sent_of_lossy {history : List (PeerRecord Peer Counter)} {peer : Peer}
    {step : PeerInput Counter} {msg : Message Counter}
    (allowed : Lossy history peer step) (received : step.event = .receive msg) :
    ∃ record ∈ history, .publish msg ∈ record.outputs := by
  simp only [Lossy, received] at allowed
  obtain ⟨packet, sender, -, isPublished⟩ := allowed
  obtain ⟨record, found, -, output⟩ := published_iff.mp isPublished
  exact ⟨record, List.mem_of_getElem? found, List.mem_of_getElem? output⟩

variable [DecidableEq Peer] [IntCast Counter] (id : Peer → PublicKey)

abbrev Reaches (enabled : Network.Enabled Peer (MatchManager Counter) (PeerInput Counter)
    (Output Counter)) : Peers Peer Counter → Prop :=
  Network.Reachable MatchManager.peer enabled fun peer => MatchManager.new (id peer)

variable {id} {net : Peers Peer Counter}
variable {enabled : Network.Enabled Peer (MatchManager Counter) (PeerInput Counter)
  (Output Counter)}

theorem Reaches.inv (reached : Reaches id enabled net) (peer : Peer) :
    (net.nodes peer).Inv ∧ (net.nodes peer).matchAgent.id = id peer := by
  apply reached.everywhere fun _ peer manager =>
    manager.Inv ∧ manager.matchAgent.id = id peer
  · exact fun peer => ⟨MatchManager.new_inv _, rfl⟩
  · exact fun _ _ _ _ _ kept => kept
  · intro net peer step _ _ ⟨inv, own⟩
    have effect := (net.nodes peer).react_effect inv step.toInput
    exact ⟨effect.inv inv, effect.id_kept.trans own⟩

structure Stepped (id : Peer → PublicKey) (record : PeerRecord Peer Counter) : Prop where
  inv : record.before.Inv
  own : record.before.matchAgent.id = id record.node
  effect : Effect record.before record.input.event (visible record.outputs) record.after

theorem Reaches.stepped (reached : Reaches id enabled net) {record : PeerRecord Peer Counter}
    (member : record ∈ net.history) : Stepped id record := by
  obtain ⟨earlier, later, split⟩ := List.append_of_mem member
  obtain ⟨past, pastReached, -, -, answered⟩ := reached.recorded split
  obtain ⟨inv, own⟩ := Reaches.inv pastReached record.node
  rw [answered]
  exact ⟨inv, own, (past.nodes record.node).react_effect inv _⟩

theorem Reaches.advertiser (reached : Reaches id Lossy net) {record : PeerRecord Peer Counter}
    (member : record ∈ net.history) {msg : MatchAdvertiseMessage Counter}
    (published : .publish (.advertise msg) ∈ record.outputs) :
    msg.advertiser = id record.node := by
  have stepped := Reaches.stepped reached member
  rw [stepped.effect.advertises (mem_visible_publish.mpr published), stepped.own]

theorem Reaches.known (reached : Reaches id Lossy net) (peer : Peer) :
    (net.nodes peer).matchMap.All fun _ entry => ∃ host, id host = entry.advertiser := by
  apply reached.everywhere fun _ _ manager => manager.matchMap.All fun _ entry =>
    ∃ host, id host = entry.advertiser
  · exact fun _ => AList.All.empty
  · exact fun _ _ _ _ _ kept => kept
  intro net peer step reached allowed kept
  obtain ⟨inv, own⟩ := Reaches.inv reached peer
  have effect := (net.nodes peer).react_effect inv step.toInput
  have closed : Closed (fun _ (entry : MatchState Counter) => ∃ host, id host = entry.advertiser)
      (fun msg => ∃ host, id host = msg.advertiser) fun _ => True :=
    ⟨fun msg seen known => known, fun _ _ _ known => known, fun _ _ _ _ _ known => known⟩
  refine effect.all closed inv.keyed (fun msg isPublished => ?_) (fun _ _ => trivial)
    (fun msg received => ?_) (fun _ _ => trivial) kept
  · exact ⟨peer, (effect.advertises isPublished).trans own |>.symm⟩
  · obtain ⟨record, member, isPublished⟩ := sent_of_lossy allowed received
    exact ⟨record.node, (Reaches.advertiser reached member isPublished).symm⟩

def DistinctMatches (id : Peer → PublicKey) : Prop :=
  ∀ peer peer' match_ match_', getMatchID (id peer) match_ = getMatchID (id peer') match_' →
    peer = peer' ∧ match_.toString = match_'.toString

/-- Whoever joins a match has been acknowledged by its host, which ended its own search with it. -/
theorem no_phantom_join (distinct : DistinctMatches id) (reached : Reaches id Lossy net)
    {earlier later : List (PeerRecord Peer Counter)} {record : PeerRecord Peer Counter}
    (split : net.history = earlier ++ record :: later)
    {agent : MatchAgent Counter} {result : MatchState Counter}
    (completes : Completes record.outputs agent result)
    (other : result.advertiser ≠ id record.node) :
    ∃ host ∈ earlier, id host.node = result.advertiser ∧
      .publish (.ack ⟨result.matchId, id record.node⟩) ∈ host.outputs ∧
        ∃ hostAgent hostResult counter, hostAgent.id = id host.node ∧
          hostResult.matchId = result.matchId ∧
            Hosts host.outputs hostAgent hostResult (id record.node, counter) := by
  obtain ⟨past, pastReached, rfl, allowed, answered⟩ := reached.recorded split
  have stepped := Reaches.stepped reached (split ▸ List.mem_append_right _ List.mem_cons_self)
  have before : record.before = past.nodes record.node := congrArg Record.before answered
  have known := Reaches.known pastReached record.node
  rw [← before] at known
  rcases stepped.effect.completes stepped.inv (completes_visible.mpr completes) with
    ⟨claim, hosting⟩ | joining
  · -- a host ends with a match of its own
    exfalso
    obtain ⟨entry, held, advertiser, game, -⟩ := hosting.held
    obtain ⟨match_, named⟩ := hosting.own
    obtain ⟨owner, owns⟩ := known _ entry held
    have identified := (stepped.inv.sound _ entry held).identified
    rw [named, stepped.own, ← owns] at identified
    have same := (distinct _ _ _ _ identified).1
    exact other (by rw [← advertiser, ← owns, same])
  · obtain ⟨entry, held, advertiser, game⟩ := joining.held
    obtain ⟨host, member, isPublished⟩ := sent_of_lossy allowed joining.acked
    have hosted := Reaches.stepped pastReached member
    rw [stepped.own] at isPublished
    obtain ⟨hostAgent, hostResult, claim, hosting, sameAck⟩ :=
      hosted.effect.acked hosted.inv (mem_visible_publish.mpr isPublished)
    obtain ⟨sameMatch, sameUser⟩ := MatchAckMessage.mk.inj sameAck
    obtain ⟨match_, named⟩ := hosting.own
    obtain ⟨owner, owns⟩ := known _ entry held
    have identified := (stepped.inv.sound _ entry held).identified
    rw [sameMatch, named, hosted.own, ← owns] at identified
    obtain rfl := (distinct _ _ _ _ identified).1
    refine ⟨host, member, owns.trans advertiser, isPublished, hostAgent, hostResult, claim.2,
      hosting.id.trans hosted.own, sameMatch.symm, ?_⟩
    rw [sameUser]
    exact hosts_visible.mp hosting.toHosts

end Network

section Small

def smallId (peer : Fin 3) : PublicKey := .small (UInt8.ofNat (peer.val + 1))

theorem smallId_distinct : DistinctMatches smallId := by
  intro peer peer' match_ match_' same
  -- all three keys have texts of the same length, so the texts of the matches begin alike
  have lengths : ∀ peer, (smallId peer).toString.toList.length = 32 := by decide
  have differ : ∀ peer peer', (smallId peer).toString.toList = (smallId peer').toString.toList →
      peer = peer' := by decide
  have texts := congrArg String.toList same
  simp only [getMatchID, String.toList_append] at texts
  obtain ⟨keys, games⟩ := List.append_inj texts ((lengths peer).trans (lengths peer').symm)
  exact ⟨differ _ _ keys, String.toList_inj.mp games⟩

variable {Counter : Type}

def smallStart [IntCast Counter] : Peers (Fin 3) Counter :=
  ⟨fun peer => MatchManager.new (smallId peer), []⟩

def PeerInput.call (now : Int) (event : Event Counter) : PeerInput Counter :=
  ⟨.still now event, none⟩

def PeerInput.deliver (now : Int) (packet : Packet) (msg : Message Counter) : PeerInput Counter :=
  ⟨.still now (.receive msg), some packet⟩

def joinSteps (counter : Counter) : List (Fin 3 × PeerInput Counter) :=
  let matchId := getMatchID (smallId 0) (.string "chess")
  [(0, .call 0 (.findMatch ["chess"] counter 0)),
    (1, .deliver 1 (0, 0) (.advertise ⟨smallId 0, .string "chess", counter⟩)),
    (1, .call 2 (.findMatch ["chess"] counter 0)),
    (0, .deliver 3 (2, 0) (.claim ⟨matchId, smallId 1, counter⟩)),
    (1, .deliver 4 (3, 0) (.ack ⟨matchId, smallId 1⟩))]

-- Two hosts advertise. A guest claims the first match, times out, and claims the second one.
-- Then both claims arrive.
def twiceSteps (counter : Counter) : List (Fin 3 × PeerInput Counter) :=
  let first := getMatchID (smallId 0) (.string "chess")
  let second := getMatchID (smallId 1) (.string "chess")
  [(0, .call 0 (.findMatch ["chess"] counter 0)),
    (2, .deliver 1 (0, 0) (.advertise ⟨smallId 0, .string "chess", counter⟩)),
    (2, .call 2 (.findMatch ["chess"] counter 0)),
    (1, .call 3 (.findMatch ["chess"] counter 0)),
    (2, .deliver 4 (3, 0) (.advertise ⟨smallId 1, .string "chess", counter⟩)),
    (2, .call 5003 (.poll 5003)),
    (0, .deliver 5004 (2, 0) (.claim ⟨first, smallId 2, counter⟩)),
    (1, .deliver 5005 (5, 0) (.claim ⟨second, smallId 2, counter⟩))]

def outdatedSteps : List (Fin 3 × PeerInput Int) :=
  let matchId := getMatchID (smallId 0) (.string "chess")
  [(0, .call 0 (.findMatch ["chess"] 1 0)),
    (1, .deliver 1 (0, 0) (.advertise ⟨smallId 0, .string "chess", 1⟩)),
    (1, .call 2 (.findMatch ["chess"] 1 0)),
    (1, .call 3 .stopMatch),
    (1, .call 4 (.findMatch ["chess"] 2 1)),
    (0, .deliver 5 (4, 0) (.claim ⟨matchId, smallId 1, 2⟩)),
    (1, .deliver 6 (5, 0) (.ack ⟨matchId, smallId 1⟩))]

theorem joinSteps_lossy :
    Network.Playable MatchManager.peer Lossy smallStart (joinSteps (1 : Int)) :=
  ⟨trivial, ⟨(0, 0), 0, rfl, by decide +kernel⟩, trivial, ⟨(2, 0), 1, rfl, by decide +kernel⟩,
    ⟨(3, 0), 0, rfl, by decide +kernel⟩, trivial⟩

theorem no_phantom_join_guest :
    let earlier := (smallStart.play MatchManager.peer ((joinSteps (1 : Int)).take 4)).history
    let matchId := getMatchID (smallId 0) (.string "chess")
    ∃ host ∈ earlier, smallId host.node = smallId 0 ∧
      .publish (.ack ⟨matchId, smallId 1⟩) ∈ host.outputs ∧
        ∃ hostAgent hostResult counter, hostAgent.id = smallId host.node ∧
          hostResult.matchId = matchId ∧
            Hosts host.outputs hostAgent hostResult (smallId 1, counter) := by
  intro earlier matchId
  let record : PeerRecord (Fin 3) Int :=
    (smallStart.play MatchManager.peer ((joinSteps (1 : Int)).take 4)).answer MatchManager.peer 1
      (.deliver 4 (3, 0) (.ack ⟨matchId, smallId 1⟩))
  let guest : MatchAgent Int :=
    ⟨smallId 1, .joiningWaitingAck, 1, 2, some ["chess"], some matchId, some 0⟩
  let joined : MatchState Int :=
    ⟨smallId 0, 1, .string "chess", matchId, 1, [(smallId 1, 1)], [smallId 1]⟩
  have split : (smallStart.play MatchManager.peer (joinSteps (1 : Int))).history =
      earlier ++ record :: [] := rfl
  have completes : Completes record.outputs guest joined := ⟨0, by decide +kernel⟩
  exact no_phantom_join smallId_distinct (Network.reachable_play _ .start joinSteps_lossy) split
    completes (by decide)

end Small

end RoundTable.Matcher
