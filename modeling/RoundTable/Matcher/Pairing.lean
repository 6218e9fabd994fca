import RoundTable.Matcher.Numbers

set_option autoImplicit false

namespace RoundTable.Matcher

open Script Reactive

section Network

variable {Peer : Type} [DecidableEq Peer]
variable {id : Peer → PublicKey} {net : Peers Peer SearchCounter}

/-- A search that publishes nothing more once it has claimed a match. -/
def Steadfast (history : List (PeerRecord Peer SearchCounter)) (peer : Peer) (search : Nat) :
    Prop :=
  ∀ earlier claim later, sent history peer search = earlier ++ .claim claim :: later → later = []

section Claims

variable {peer : Peer} {search : Nat} {history : List (PeerRecord Peer SearchCounter)}
variable (steadfast : Steadfast history peer search)

include steadfast

theorem Steadfast.silent {earlier later : List (PeerRecord Peer SearchCounter)}
    {record : PeerRecord Peer SearchCounter} (split : history = earlier ++ record :: later)
    (stepped : Stepped id record) (atPeer : record.node = peer)
    {msg : MatchClaimMessage SearchCounter} (number : msg.counter.search = search)
    (published : .publish (.claim msg) ∈ record.outputs) : sent later peer search = [] := by
  apply steadfast (sent earlier peer search) msg
  rw [split, ← atPeer, sent_split, (stepped.claims published).1]
  simp [pursuits, Output.pursuit, number]

theorem Steadfast.claim_unique (stepped : ∀ record ∈ history, Stepped id record)
    {i j : Nat} {record record' : PeerRecord Peer SearchCounter}
    {msg msg' : MatchClaimMessage SearchCounter}
    (first : history[i]? = some record) (second : history[j]? = some record')
    (published : .publish (.claim msg) ∈ record.outputs)
    (published' : .publish (.claim msg') ∈ record'.outputs)
    (atPeer : record.node = peer) (atPeer' : record'.node = peer)
    (number : msg.counter.search = search) (number' : msg'.counter.search = search) :
    i = j ∧ msg = msg' := by
  -- of two claims the later one would have been published after the earlier one
  have ordered {i j : Nat} {record record' : PeerRecord Peer SearchCounter}
      {msg msg' : MatchClaimMessage SearchCounter}
      (first : history[i]? = some record) (second : history[j]? = some record')
      (published : .publish (.claim msg) ∈ record.outputs)
      (published' : .publish (.claim msg') ∈ record'.outputs)
      (atPeer : record.node = peer) (atPeer' : record'.node = peer)
      (number : msg.counter.search = search) (number' : msg'.counter.search = search) :
      ¬i < j := by
    intro before
    have silent := steadfast.silent (split_at first)
      (stepped record (List.mem_of_getElem? first)) atPeer number published
    have member : Message.claim msg' ∈ sent (history.drop (i + 1)) peer search :=
      mem_sent_claim.mpr ⟨number', record', getElem?_later before second, atPeer', published'⟩
    rw [silent] at member
    cases member
  have same : i = j := by
    have forwards := ordered first second published published' atPeer atPeer' number number'
    have backwards := ordered second first published' published atPeer' atPeer number' number
    omega
  subst same
  obtain rfl := Option.some.inj (first.symm.trans second)
  have shown := (stepped record (List.mem_of_getElem? first)).claims published
  have shown' := (stepped record (List.mem_of_getElem? first)).claims published'
  refine ⟨rfl, ?_⟩
  simpa using shown.1.symm.trans shown'.1

theorem Steadfast.claim_last {msg : MatchClaimMessage SearchCounter}
    (member : .claim msg ∈ sent history peer search) :
    (sent history peer search).getLast? = some (.claim msg) := by
  obtain ⟨earlier, later, split⟩ := List.append_of_mem member
  rw [split, steadfast _ _ _ split]
  simp

end Claims

def deliveries (history : List (PeerRecord Peer SearchCounter)) (peer : Peer)
    (msg : MatchClaimMessage SearchCounter) : Nat :=
  history.countP fun record => record.node = peer && record.input.event.delivers msg

def hostings (history : List (PeerRecord Peer SearchCounter)) (peer : Peer)
    (msg : MatchClaimMessage SearchCounter) : Nat :=
  history.countP fun record => record.node = peer && record.outputs.any (Output.hosts msg)

theorem Reaches.hostings_le (reached : Reaches id Once net) {msg : MatchClaimMessage SearchCounter}
    (peer : Peer) (other : msg.user ≠ id peer) :
    hostings net.history peer msg + ((net.nodes peer).holds msg).toNat ≤
      deliveries net.history peer msg := by
  revert other
  apply reached.everywhere fun history peer manager => msg.user ≠ id peer →
    hostings history peer msg + (manager.holds msg).toNat ≤ deliveries history peer msg
  · intro peer _
    simp [hostings, deliveries, MatchManager.holds, MatchManager.new]
  · intro history record peer manager elsewhere kept other
    simpa [hostings, deliveries, List.countP_append, elsewhere] using kept other
  · intro net peer step reached allowed kept other
    obtain ⟨inv, own⟩ := Reaches.inv reached peer
    have before := kept other
    have moved : (((net.nodes peer).peer step).2.any (Output.hosts msg)).toNat +
        (((net.nodes peer).peer step).1.holds msg).toNat ≤
          ((net.nodes peer).holds msg).toNat + (step.event.delivers msg).toNat := by
      rw [← any_visible]
      exact ((net.nodes peer).react_effect inv step.toInput).holds inv (own ▸ other)
    simp only [hostings, deliveries, List.countP_append, List.countP_singleton, Network.answer,
      decide_true, Bool.true_and, Bool.toNat, Bool.cond_eq_ite] at *
    omega

theorem Reaches.delivered_packet (reached : Reaches id Once net)
    {msg : MatchClaimMessage SearchCounter} {i : Nat} {record : PeerRecord Peer SearchCounter}
    (found : net.history[i]? = some record) (delivers : record.input.event.delivers msg = true) :
    ∃ packet source, record.input.packet = some packet ∧ net.history[packet.1]? = some source ∧
      source.outputs[packet.2]? = some (.publish (.claim msg)) ∧
        ∀ old ∈ net.history.take i, old.node = record.node → old.input.packet ≠ some packet := by
  obtain ⟨past, -, -, allowed, -⟩ := recorded_at reached found
  unfold Once at allowed
  cases event : record.input.event with
  | receive received =>
    rw [event] at delivers allowed
    obtain ⟨packet, sender, isPacket, isPublished, -, fresh⟩ := allowed
    obtain ⟨source, isSource, -, output⟩ := published_iff.mp isPublished
    cases received with
    | claim msg' =>
      obtain rfl : msg' = msg := by simpa [Event.delivers] using delivers
      refine ⟨packet, source, isPacket, ?_, output, fresh⟩
      rw [List.getElem?_take] at isSource
      split at isSource
      next => exact isSource
      next => cases isSource
    | _ => cases delivers
  | _ =>
    rw [event] at delivers
    cases delivers

theorem Reaches.delivered_once (reached : Reaches id Once net) {user : Peer} {search : Nat}
    (steadfast : Steadfast net.history user search) {msg : MatchClaimMessage SearchCounter}
    (injective : Function.Injective id) (sender : msg.user = id user)
    (number : msg.counter.search = search) (peer : Peer) :
    deliveries net.history peer msg ≤ 1 := by
  -- a later delivery to the same peer would be one of the same packet
  have ordered {i j : Nat} {record record' : PeerRecord Peer SearchCounter}
      (first : net.history[i]? = some record) (second : net.history[j]? = some record')
      (holds : (record.node = peer && record.input.event.delivers msg) = true)
      (holds' : (record'.node = peer && record'.input.event.delivers msg) = true) : ¬i < j := by
    intro before
    obtain ⟨atPeer, delivers⟩ : record.node = peer ∧ record.input.event.delivers msg = true := by
      simpa using holds
    obtain ⟨atPeer', delivers'⟩ : record'.node = peer ∧ record'.input.event.delivers msg = true := by
      simpa using holds'
    obtain ⟨packet, source, isPacket, isSource, output, -⟩ := reached.delivered_packet first delivers
    obtain ⟨packet', source', isPacket', isSource', output', fresh⟩ :=
      reached.delivered_packet second delivers'
    have stepped (record : PeerRecord Peer SearchCounter) (member : record ∈ net.history) :
        Stepped id record := Reaches.stepped reached member
    have published := List.mem_of_getElem? output
    have published' := List.mem_of_getElem? output'
    have user_of (source : PeerRecord Peer SearchCounter) (member : source ∈ net.history)
        (published : .publish (.claim msg) ∈ source.outputs) : source.node = user :=
      injective (((stepped source member).claims published).2.symm.trans sender)
    have member := List.mem_of_getElem? isSource
    have member' := List.mem_of_getElem? isSource'
    obtain ⟨samePlace, -⟩ := steadfast.claim_unique stepped isSource isSource' published published'
      (user_of source member published) (user_of source' member' published') number number
    rw [samePlace, isSource'] at isSource
    obtain rfl := Option.some.inj isSource
    have sameOutput : packet.2 = packet'.2 :=
      visible_place ((stepped _ member').claims published').1 output output' rfl rfl
    have samePacket : packet = packet' := Prod.ext samePlace sameOutput
    exact fresh record (getElem?_earlier before first) (atPeer.trans atPeer'.symm)
      (samePacket ▸ isPacket)
  refine countP_le_one _ fun i j record record' first second holds holds' => ?_
  have forwards := ordered first second holds holds'
  have backwards := ordered second first holds' holds
  omega

/-- A search takes part in at most one pairing: one host at most acknowledges a claim of it, and
when one does, the search ends with no other match. -/
def PairsOnce (id : Peer → PublicKey) (history : List (PeerRecord Peer SearchCounter))
    (user : Peer) (search : Nat) : Prop :=
  ∀ (i : Nat) record agent result counter, history[i]? = some record →
    Hosts record.outputs agent result (id user, counter) → counter.search = search →
      (∀ (j : Nat) record' agent' result' counter', history[j]? = some record' →
        Hosts record'.outputs agent' result' (id user, counter') → counter'.search = search →
          j = i) ∧
      ∀ record' ∈ history, record'.node = user → ∀ agent' result',
        Completes record'.outputs agent' result' → agent'.counter.search = search →
          result'.matchId = result.matchId

section Pairing

variable (distinct : DistinctMatches id)

include distinct

omit [DecidableEq Peer] in
theorem injective_of_distinct : Function.Injective id := by
  intro peer peer' same
  exact (distinct peer peer' (.string "") (.string "") (by rw [same])).1

variable (reached : Reaches id Once net)

include reached

theorem Reaches.claims_other {source : PeerRecord Peer SearchCounter}
    (member : source ∈ net.history) {msg : MatchClaimMessage SearchCounter}
    (isPublished : .publish (.claim msg) ∈ source.outputs) (match_ : MatchField) :
    msg.matchId ≠ getMatchID (id source.node) match_ := by
  intro named
  obtain ⟨i, found⟩ := List.getElem?_of_mem member
  obtain ⟨past, pastReached, -, -, before⟩ := recorded_at reached found
  have stepped := Reaches.stepped reached member
  obtain ⟨entry, held, differs⟩ :=
    stepped.effect.claims_other (mem_visible_publish.mpr isPublished)
  have known := Reaches.known (pastReached.mono once_lossy) source.node
  rw [← before] at known
  obtain ⟨host, isHost⟩ := known _ entry held
  have identified := (stepped.inv.sound _ entry held).identified
  rw [named, ← isHost] at identified
  apply differs
  rw [stepped.own, ← isHost, (distinct _ _ _ _ identified).1]

theorem Reaches.hosted_claim {i : Nat} {record : PeerRecord Peer SearchCounter}
    (found : net.history[i]? = some record) {agent : MatchAgent SearchCounter}
    {result : MatchState SearchCounter} {user : Peer} {counter : SearchCounter}
    (hosts : Hosts record.outputs agent result (id user, counter)) :
    (∃ match_, result.matchId = getMatchID (id record.node) match_) ∧ record.node ≠ user ∧
      ∃ source ∈ net.history, source.node = user ∧
        .publish (.claim ⟨result.matchId, id user, counter⟩) ∈ source.outputs := by
  have stepped := Reaches.stepped reached (List.mem_of_getElem? found)
  have hosting := stepped.effect.hosts stepped.inv (hosts_visible.mpr hosts)
  obtain ⟨past, pastReached, history, allowed, before⟩ := recorded_at reached found
  obtain ⟨match_, named⟩ := hosting.own
  rw [stepped.own] at named
  -- the claim was held, or it has just been delivered: either way it has been published
  obtain ⟨source, member, isPublished⟩ : ∃ source ∈ net.history,
      .publish (.claim ⟨result.matchId, id user, counter⟩) ∈ source.outputs := by
    obtain ⟨entry, held, -, -, claimed | delivered⟩ := hosting.held
    · rw [before] at held
      obtain ⟨source, member, isPublished⟩ :=
        Reaches.claimed pastReached record.node _ entry held _ claimed
      exact ⟨source, List.mem_of_mem_take (history ▸ member), isPublished⟩
    · obtain ⟨source, member, isPublished⟩ := sent_of_lossy (once_lossy _ _ _ allowed) delivered
      exact ⟨source, List.mem_of_mem_take member, isPublished⟩
  have byUser : source.node = user := injective_of_distinct distinct
    ((Reaches.stepped reached member).claims isPublished).2.symm
  refine ⟨⟨match_, named⟩, fun same => ?_, source, member, byUser, isPublished⟩
  exact Reaches.claims_other distinct reached member isPublished match_
    (by rw [byUser, ← same]; exact named)

variable {user : Peer} {search : Nat} (steadfast : Steadfast net.history user search)

include steadfast

omit distinct in
theorem Reaches.one_claim {source source' : PeerRecord Peer SearchCounter}
    {msg msg' : MatchClaimMessage SearchCounter} (member : source ∈ net.history)
    (member' : source' ∈ net.history) (byUser : source.node = user) (byUser' : source'.node = user)
    (isPublished : .publish (.claim msg) ∈ source.outputs)
    (isPublished' : .publish (.claim msg') ∈ source'.outputs)
    (number : msg.counter.search = search) (number' : msg'.counter.search = search) :
    msg = msg' := by
  obtain ⟨i, found⟩ := List.getElem?_of_mem member
  obtain ⟨j, found'⟩ := List.getElem?_of_mem member'
  exact (steadfast.claim_unique (fun _ isRecord => Reaches.stepped reached isRecord) found found'
    isPublished isPublished' byUser byUser' number number').2

theorem Reaches.hosted_once {i j : Nat} {record record' : PeerRecord Peer SearchCounter}
    {agent agent' : MatchAgent SearchCounter} {result result' : MatchState SearchCounter}
    {counter counter' : SearchCounter} (found : net.history[i]? = some record)
    (found' : net.history[j]? = some record')
    (hosts : Hosts record.outputs agent result (id user, counter))
    (hosts' : Hosts record'.outputs agent' result' (id user, counter'))
    (number : counter.search = search) (number' : counter'.search = search) : i = j := by
  obtain ⟨⟨match_, named⟩, differs, source, member, byUser, isPublished⟩ :=
    Reaches.hosted_claim distinct reached found hosts
  obtain ⟨⟨match_', named'⟩, -, source', member', byUser', isPublished'⟩ :=
    Reaches.hosted_claim distinct reached found' hosts'
  obtain ⟨sameMatch, -, sameCounter⟩ := MatchClaimMessage.mk.inj
    (Reaches.one_claim reached steadfast member member' byUser byUser' isPublished
      isPublished' number number')
  have samePeer : record.node = record'.node :=
    (distinct _ _ _ _ (named.symm.trans (sameMatch.trans named'))).1
  let msg : MatchClaimMessage SearchCounter := ⟨result.matchId, id user, counter⟩
  have injective := injective_of_distinct distinct
  have delivered : deliveries net.history record.node msg ≤ 1 :=
    Reaches.delivered_once reached steadfast injective rfl number record.node
  have counted : hostings net.history record.node msg + _ ≤ deliveries net.history record.node msg :=
    Reaches.hostings_le reached record.node fun same => differs (injective same).symm
  let hostsHere (old : PeerRecord Peer SearchCounter) : Bool :=
    old.node = record.node && old.outputs.any (Output.hosts msg)
  have hosted : hostsHere record = true := by simpa [hostsHere] using hosts.any
  have hosted' : hostsHere record' = true := by
    have shown := hosts'.any
    rw [← sameMatch, ← sameCounter] at shown
    simpa [hostsHere, samePeer] using shown
  change net.history.countP hostsHere + _ ≤ _ at counted
  rcases Nat.lt_trichotomy i j with before | same | after
  · have twice := two_le_countP hostsHere before found found' hosted hosted'
    omega
  · exact same
  · have twice := two_le_countP hostsHere after found' found hosted' hosted
    omega

theorem Reaches.ends_with_host {i : Nat} {record record' : PeerRecord Peer SearchCounter}
    {agent agent' : MatchAgent SearchCounter} {result result' : MatchState SearchCounter}
    {counter : SearchCounter} (found : net.history[i]? = some record)
    (hosts : Hosts record.outputs agent result (id user, counter))
    (number : counter.search = search) (member' : record' ∈ net.history)
    (byUser : record'.node = user) (ends : Completes record'.outputs agent' result')
    (number' : agent'.counter.search = search) : result'.matchId = result.matchId := by
  obtain ⟨-, -, source, member, fromUser, isPublished⟩ :=
    Reaches.hosted_claim distinct reached found hosts
  have claimSent : Message.claim ⟨result.matchId, id user, counter⟩ ∈ sent net.history user search :=
    mem_sent_claim.mpr ⟨number, source, member, fromUser, isPublished⟩
  have last := steadfast.claim_last claimSent
  obtain ⟨j, found'⟩ := List.getElem?_of_mem member'
  obtain ⟨past, pastReached, history, allowed, before⟩ := recorded_at reached found'
  have numbered := Reaches.numbered pastReached record'.node
  rw [← before, history] at numbered
  have stepped := Reaches.stepped reached member'
  have silent := Reaches.silent_after_end reached (split_at found') ends
  have split : sent net.history user search =
      sent (net.history.take j) user search ++ pursuits search (visible record'.outputs) := by
    conv_lhs => rw [split_at found', ← byUser, sent_split]
    rw [← number', silent, List.append_nil, byUser]
  rcases stepped.effect.completes stepped.inv (completes_visible.mpr ends) with
    ⟨claim, hosting⟩ | joining
  · exfalso
    rw [split] at last
    cases stepped.effect.searches stepped.inv with
    | searches held after targetMatch counter' callback acts search' keyed same agentSame =>
      obtain ⟨-, sameCounter, advert, advertised, advertCounter, unclaimed⟩ :=
        search'.ended_idle (completes_visible.mpr ends)
      have advertSent : .advertise advert ∈ pursuits search (visible record'.outputs) :=
        List.mem_filterMap.mpr ⟨_, advertised, by
          simp [Output.pursuit, advertCounter, ← sameCounter, number']⟩
      rw [List.getLast?_append_of_ne_nil _ (List.ne_nil_of_mem advertSent)] at last
      exact claim_notMem_pursuits unclaimed _ (List.mem_of_getLast? last)
    | rests agentSame adverts claims endings =>
      obtain ⟨rfl, -, -⟩ := endings agent' result' (completes_visible.mpr ends)
      obtain ⟨advert, advertLast⟩ := numbered.serving hosting.serving
      rw [byUser, number'] at advertLast
      rw [pursuits_eq_nil adverts claims, List.append_nil, advertLast] at last
      cases last
  · obtain ⟨msg, msgLast, current⟩ := numbered.joining joining.joins.1
    rw [← joining.same, number', byUser] at msgLast
    have msgSent : .claim msg ∈ sent net.history user search := by
      rw [split]
      exact List.mem_append_left _ (List.mem_of_getLast? msgLast)
    have sameClaim := (steadfast.claim_last msgSent).symm.trans last
    rw [joining.joins.2] at current
    rw [Option.some.inj current, Message.claim.inj (Option.some.inj sameClaim)]

/-- A search that keeps to its first claim takes part in at most one pairing. -/
theorem steadfast_pairs_once : PairsOnce id net.history user search := by
  intro i record agent result counter found hosts number
  constructor
  · intro j record' agent' result' counter' found' hosts' number'
    exact Reaches.hosted_once distinct reached steadfast found' found hosts' hosts number' number
  · intro record' member' byUser agent' result' ends number'
    exact Reaches.ends_with_host distinct reached steadfast found hosts number member' byUser ends
      number'

end Pairing

end Network

section Small

theorem joinSteps_once :
    Network.Playable MatchManager.peer Once smallStart (joinSteps ⟨1, 0⟩) :=
  ⟨⟨rfl, by decide +kernel⟩, ⟨(0, 0), 0, rfl, by decide +kernel⟩, ⟨rfl, by decide +kernel⟩,
    ⟨(2, 0), 1, rfl, by decide +kernel⟩, ⟨(3, 0), 0, rfl, by decide +kernel⟩, trivial⟩

theorem steadfast_pairs_once_guest :
    PairsOnce smallId (smallStart.play MatchManager.peer (joinSteps ⟨1, 0⟩)).history 1 0 := by
  have claims : sent (smallStart.play MatchManager.peer (joinSteps ⟨1, 0⟩)).history 1 0 =
      [.claim ⟨getMatchID (smallId 0) (.string "chess"), smallId 1, ⟨1, 0⟩⟩] := by decide +kernel
  refine steadfast_pairs_once smallId_distinct
    (Network.reachable_play _ .start joinSteps_once) fun earlier claim later split => ?_
  have shape := claims.symm.trans split
  cases earlier with
  | nil => exact (List.cons.inj shape).2.symm
  | cons _ _ => simp at shape

theorem twiceSteps_once : Network.Playable MatchManager.peer Once smallStart (twiceSteps ⟨1, 0⟩) :=
  ⟨⟨rfl, by decide +kernel⟩, ⟨(0, 0), 0, rfl, by decide +kernel⟩, ⟨rfl, by decide +kernel⟩,
    ⟨rfl, by decide +kernel⟩, ⟨(3, 0), 1, rfl, by decide +kernel⟩, rfl,
    ⟨(2, 0), 2, rfl, by decide +kernel⟩, ⟨(5, 0), 2, rfl, by decide +kernel⟩, trivial⟩

theorem claimed_twice :
    ∃ net : Peers (Fin 3) SearchCounter, Reaches smallId Once net ∧
      ¬PairsOnce smallId net.history 2 0 := by
  let net : Peers (Fin 3) SearchCounter :=
    smallStart.play MatchManager.peer (twiceSteps ⟨1, 0⟩)
  refine ⟨net, Network.reachable_play _ .start twiceSteps_once, fun once => ?_⟩
  let hosting (step : Nat) (host : Fin 3) (packet : Packet) : PeerRecord (Fin 3) SearchCounter :=
    (smallStart.play MatchManager.peer ((twiceSteps ⟨1, 0⟩).take step)).answer MatchManager.peer host
      (.deliver (5004 + host.val) packet (.claim
        ⟨getMatchID (smallId host) (.string "chess"), smallId 2, ⟨1, 0⟩⟩))
  let agent (host : Fin 3) (start : Int) : MatchAgent SearchCounter :=
    ⟨smallId host, .servingWaitingClaims, ⟨1, 0⟩, start, some ["chess"],
      some (getMatchID (smallId host) (.string "chess")), some 0⟩
  let result (host : Fin 3) (start : Int) : MatchState SearchCounter :=
    ⟨smallId host, ⟨1, 0⟩, .string "chess", getMatchID (smallId host) (.string "chess"), start,
      [(smallId 2, ⟨1, 0⟩)], [smallId 2]⟩
  have first : Hosts (hosting 6 0 (2, 0)).outputs (agent 0 0) (result 0 0) (smallId 2, ⟨1, 0⟩) :=
    ⟨⟨0, by decide +kernel⟩, rfl, rfl, rfl, by decide +kernel⟩
  have second : Hosts (hosting 7 1 (5, 0)).outputs (agent 1 3) (result 1 3) (smallId 2, ⟨1, 0⟩) :=
    ⟨⟨0, by decide +kernel⟩, rfl, rfl, rfl, by decide +kernel⟩
  have same := (once 6 _ _ _ _ rfl first rfl).1 7 _ _ _ _ rfl second rfl
  cases same

end Small

end RoundTable.Matcher
