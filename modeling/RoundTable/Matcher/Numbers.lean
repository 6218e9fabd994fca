import RoundTable.Matcher.Searches

set_option autoImplicit false

namespace RoundTable.Matcher

open Script Reactive

/-- The counter of a search, and the number of the search among those its user has called for. -/
structure SearchCounter where
  counter : Int
  search : Nat
deriving DecidableEq

instance : IntCast SearchCounter := ⟨fun counter => ⟨counter, 0⟩⟩

def Output.pursuit (search : Nat) : Output SearchCounter → Option (Message SearchCounter)
  | .publish (.advertise msg) =>
    if msg.counter.search = search then some (.advertise msg) else none
  | .publish (.claim msg) => if msg.counter.search = search then some (.claim msg) else none
  | _ => none

def pursuits (search : Nat) (outputs : List (Output SearchCounter)) :
    List (Message SearchCounter) :=
  outputs.filterMap (Output.pursuit search)

theorem pursuits_visible (search : Nat) (outputs : List (Output SearchCounter)) :
    pursuits search (visible outputs) = pursuits search outputs := by
  rw [pursuits, visible, List.filterMap_filter]
  exact congrArg (List.filterMap · outputs) (funext fun output => by cases output <;> rfl)

theorem pursuits_eq_nil {search : Nat} {outputs : List (Output SearchCounter)}
    (adverts : ∀ msg, .publish (.advertise msg) ∉ outputs)
    (claims : ∀ msg, .publish (.claim msg) ∉ outputs) : pursuits search outputs = [] := by
  rw [pursuits, List.filterMap_eq_nil_iff]
  intro output member
  cases output with
  | listener | callback => rfl
  | publish msg =>
    cases msg with
    | advertise msg => exact absurd member (adverts msg)
    | claim msg => exact absurd member (claims msg)
    | unadvertise | ack => rfl

theorem claim_notMem_pursuits {search : Nat} {outputs : List (Output SearchCounter)}
    (claims : ∀ msg, .publish (.claim msg) ∉ outputs) (msg : MatchClaimMessage SearchCounter) :
    .claim msg ∉ pursuits search outputs := by
  intro member
  obtain ⟨output, isOutput, pursuit⟩ := List.mem_filterMap.mp member
  cases output with
  | listener | callback => cases pursuit
  | publish msg' =>
    cases msg' with
    | unadvertise | ack => cases pursuit
    | advertise => simp [Output.pursuit] at pursuit
    | claim msg' => exact claims msg' isOutput

theorem mem_pursuits_claim {search : Nat} {outputs : List (Output SearchCounter)}
    {msg : MatchClaimMessage SearchCounter} (published : .publish (.claim msg) ∈ outputs)
    (number : msg.counter.search = search) : .claim msg ∈ pursuits search outputs :=
  List.mem_filterMap.mpr ⟨_, published, by simp [Output.pursuit, number]⟩

section Network

variable {Peer : Type} [DecidableEq Peer]

def Event.isFindMatch {Counter : Type} : Event Counter → Bool
  | .findMatch _ _ _ => true
  | _ => false

def calls (history : List (PeerRecord Peer SearchCounter)) (peer : Peer) : Nat :=
  history.countP fun record => record.node = peer && record.input.event.isFindMatch

def sent (history : List (PeerRecord Peer SearchCounter)) (peer : Peer) (search : Nat) :
    List (Message SearchCounter) :=
  history.flatMap fun record => if record.node = peer then pursuits search record.outputs else []

/-- A packet is delivered at most once to each peer, and never to its publisher. Each call to find a
match is numbered. -/
def Once : Network.Enabled Peer (MatchManager SearchCounter) (PeerInput SearchCounter)
    (Output SearchCounter) :=
  fun history peer step =>
    match step.event with
    | .receive msg => ∃ packet sender, step.packet = some packet ∧
        published history packet = some (sender, msg) ∧ sender ≠ peer ∧
          ∀ record ∈ history, record.node = peer → record.input.packet ≠ some packet
    | .receiveMalformed => False
    | .findMatch _ counter _ => step.packet = none ∧ counter.search = calls history peer
    | _ => step.packet = none

theorem once_lossy (history : List (PeerRecord Peer SearchCounter)) (peer : Peer)
    (step : PeerInput SearchCounter) (once : Once history peer step) :
    Lossy history peer step := by
  unfold Once at once
  unfold Lossy
  cases event : step.event with
  | receive msg =>
    rw [event] at once
    obtain ⟨packet, sender, delivered, isPublished, -⟩ := once
    exact ⟨packet, sender, delivered, isPublished⟩
  | receiveMalformed => simp [event] at once
  | _ => trivial

theorem once_fresh {history : List (PeerRecord Peer SearchCounter)} {peer : Peer}
    {step : PeerInput SearchCounter} (allowed : Once history peer step) (targetMatch : List String)
    (counter : SearchCounter) (callback : Callback)
    (called : step.event = .findMatch targetMatch counter callback) :
    counter.search = calls history peer := by
  simp only [Once, called] at allowed
  exact allowed.2

theorem sent_append (history later : List (PeerRecord Peer SearchCounter)) (peer : Peer)
    (search : Nat) : sent (history ++ later) peer search =
      sent history peer search ++ sent later peer search := List.flatMap_append

structure Numbered (history : List (PeerRecord Peer SearchCounter)) (peer : Peer)
    (manager : MatchManager SearchCounter) : Prop where
  current : manager.matchAgent.state ≠ .idle →
    manager.matchAgent.counter.search < calls history peer
  ended : ∀ record ∈ history, record.node = peer → ∀ agent result,
    Completes record.outputs agent result → agent.counter.search < calls history peer ∧
      (manager.matchAgent.state ≠ .idle →
        manager.matchAgent.counter.search ≠ agent.counter.search)
  joining : manager.matchAgent.state = .joiningWaitingAck → ∃ msg,
    (sent history peer manager.matchAgent.counter.search).getLast? = some (.claim msg) ∧
      manager.matchAgent.matchId = some msg.matchId
  serving : manager.matchAgent.state = .servingWaitingClaims → ∃ msg,
    (sent history peer manager.matchAgent.counter.search).getLast? = some (.advertise msg)

theorem calls_append (history : List (PeerRecord Peer SearchCounter))
    (record : PeerRecord Peer SearchCounter) (peer : Peer) :
    calls (history ++ [record]) peer = calls history peer +
      if record.node = peer && record.input.event.isFindMatch then 1 else 0 := by
  simp [calls, List.countP_append, List.countP_singleton]

theorem sent_snoc (history : List (PeerRecord Peer SearchCounter))
    (record : PeerRecord Peer SearchCounter) (peer : Peer) (search : Nat) :
    sent (history ++ [record]) peer search = sent history peer search ++
      if record.node = peer then pursuits search (visible record.outputs) else [] := by
  rw [sent_append, pursuits_visible]
  simp [sent]

section Step

variable {history : List (PeerRecord Peer SearchCounter)} {peer : Peer}
variable {record : PeerRecord Peer SearchCounter}

theorem Numbered.others {manager : MatchManager SearchCounter}
    (numbered : Numbered history peer manager) (other : record.node ≠ peer) :
    Numbered (history ++ [record]) peer manager := by
  have sameCalls : calls (history ++ [record]) peer = calls history peer := by
    simp [calls_append, other]
  have sameSent (search : Nat) :
      sent (history ++ [record]) peer search = sent history peer search := by
    simp [sent_snoc, other]
  refine ⟨?_, ?_, ?_, ?_⟩
  · rw [sameCalls]
    exact numbered.current
  · intro old member atPeer
    rw [sameCalls]
    rcases List.mem_append.mp member with before | now
    · exact numbered.ended old before atPeer
    · rw [List.mem_singleton.mp now] at atPeer
      exact absurd atPeer other
  · simp only [sameSent]
    exact numbered.joining
  · simp only [sameSent]
    exact numbered.serving

variable (numbered : Numbered history peer record.before) (atPeer : record.node = peer)
variable (effect : Effect record.before record.input.event (visible record.outputs) record.after)

include numbered atPeer

omit atPeer in
theorem Numbered.rests
    (agent : record.after.matchAgent.state ≠ .idle →
      record.after.matchAgent = record.before.matchAgent)
    (adverts : ∀ msg, .publish (.advertise msg) ∉ visible record.outputs)
    (claims : ∀ msg, .publish (.claim msg) ∉ visible record.outputs)
    (ends : ∀ agent result, Completes (visible record.outputs) agent result →
      agent = record.before.matchAgent ∧ record.before.matchAgent.state ≠ .idle ∧
        record.after.matchAgent.state = .idle) :
    Numbered (history ++ [record]) peer record.after := by
  have more : calls history peer ≤ calls (history ++ [record]) peer := by
    rw [calls_append]
    omega
  have sameSent (search : Nat) :
      sent (history ++ [record]) peer search = sent history peer search := by
    simp [sent_snoc, pursuits_eq_nil adverts claims]
  refine ⟨fun busy => ?_, fun old member oldAtPeer ended result completes => ?_, fun joining => ?_,
    fun serving => ?_⟩
  · have same := agent busy
    rw [same] at busy ⊢
    exact (numbered.current busy).trans_le more
  · rcases List.mem_append.mp member with before | now
    · obtain ⟨bound, differs⟩ := numbered.ended old before oldAtPeer ended result completes
      refine ⟨bound.trans_le more, fun busy => ?_⟩
      have same := agent busy
      rw [same] at busy ⊢
      exact differs busy
    · rw [List.mem_singleton.mp now] at completes
      obtain ⟨rfl, busy, idle⟩ := ends ended result (completes_visible.mpr completes)
      exact ⟨(numbered.current busy).trans_le more, fun busyAfter => absurd idle busyAfter⟩
  · have same := agent (by simp [joining])
    rw [same] at joining ⊢
    rw [sameSent]
    exact numbered.joining joining
  · have same := agent (by simp [serving])
    rw [same] at serving ⊢
    rw [sameSent]
    exact numbered.serving serving

theorem Numbered.acting {counter : SearchCounter}
    (acts : Acts record.before record.input.event counter)
    (fresh : ∀ targetMatch callback, record.input.event = .findMatch targetMatch counter callback →
      counter.search = calls history peer) :
    counter.search < calls (history ++ [record]) peer ∧
      ∀ old ∈ history, old.node = peer → ∀ agent result, Completes old.outputs agent result →
        counter.search ≠ agent.counter.search := by
  rw [calls_append]
  rcases acts with ⟨busy, rfl⟩ | ⟨idle, targetMatch, callback, called⟩
  · refine ⟨by have := numbered.current busy; omega, fun old member oldAtPeer agent result ends => ?_⟩
    exact (numbered.ended old member oldAtPeer agent result ends).2 busy
  · have number := fresh _ _ called
    refine ⟨by simp [atPeer, called, Event.isFindMatch, number], ?_⟩
    intro old member oldAtPeer agent result ends
    have bound := (numbered.ended old member oldAtPeer agent result ends).1
    omega

theorem Numbered.searches {held after : MatchManager SearchCounter} {targetMatch : List String}
    {counter : SearchCounter} {callback : Callback}
    (search : Search held targetMatch counter callback (visible record.outputs) after)
    (agent : record.after.matchAgent = after.matchAgent)
    (acts : Acts record.before record.input.event counter)
    (fresh : ∀ targetMatch callback, record.input.event = .findMatch targetMatch counter callback →
      counter.search = calls history peer) :
    Numbered (history ++ [record]) peer record.after := by
  obtain ⟨bound, unended⟩ := numbered.acting atPeer acts fresh
  have more : calls history peer ≤ calls (history ++ [record]) peer := by
    rw [calls_append]
    omega
  refine ⟨fun busy => ?_, fun old member oldAtPeer ended result completes => ?_, fun joining => ?_,
    fun serving => ?_⟩
  · rw [agent] at busy ⊢
    rw [(search.pursues busy).1]
    exact bound
  · rcases List.mem_append.mp member with before | now
    · refine ⟨(numbered.ended old before oldAtPeer ended result completes).1.trans_le more,
        fun busy => ?_⟩
      rw [agent] at busy ⊢
      rw [(search.pursues busy).1]
      exact unended old before oldAtPeer ended result completes
    · rw [List.mem_singleton.mp now] at completes
      obtain ⟨idle, same, -⟩ := search.ended_idle (completes_visible.mpr completes)
      rw [agent, same]
      exact ⟨bound, fun busy => absurd idle busy⟩
  · rw [agent] at joining ⊢
    obtain ⟨same, ⟨-, msg, actions, number, current⟩ | ⟨serving, -⟩⟩ :=
      search.pursues (by simp [joining])
    · refine ⟨msg, ?_, current⟩
      rw [sent_snoc, if_pos atPeer, actions, same]
      simp [pursuits, Output.pursuit, number]
    · simp [joining] at serving
  · rw [agent] at serving ⊢
    obtain ⟨same, ⟨joining, -⟩ | ⟨-, msg, actions, number⟩⟩ := search.pursues (by simp [serving])
    · simp [serving] at joining
    · refine ⟨msg, ?_⟩
      rw [sent_snoc, if_pos atPeer, actions, same]
      simp [pursuits, Output.pursuit, number]

end Step

variable {id : Peer → PublicKey} {net : Peers Peer SearchCounter}

theorem Reaches.numbered (reached : Reaches id Once net) (peer : Peer) :
    Numbered net.history peer (net.nodes peer) := by
  apply reached.everywhere Numbered
  · intro peer
    refine ⟨fun busy => absurd rfl busy, by simp, fun joining => ?_, fun serving => ?_⟩
    · cases joining
    · cases serving
  · exact fun _ _ _ _ other numbered => numbered.others other
  · intro net peer step reached allowed numbered
    obtain ⟨inv, -⟩ := Reaches.inv reached peer
    have effect := (net.nodes peer).react_effect inv step.toInput
    let record := net.answer MatchManager.peer peer step
    have kept : Numbered (net.history ++ [record]) peer record.after := by
      cases effect.searches inv with
      | searches held after targetMatch counter callback acts search keyed same agent =>
        exact numbered.searches rfl search agent acts
          fun targetMatch callback called => once_fresh allowed targetMatch counter callback called
      | rests agent adverts claims ends => exact numbered.rests agent adverts claims ends
    exact kept

omit [DecidableEq Peer] in
theorem Stepped.claims {record : PeerRecord Peer SearchCounter} (stepped : Stepped id record)
    {msg : MatchClaimMessage SearchCounter} (published : .publish (.claim msg) ∈ record.outputs) :
    visible record.outputs = [.publish (.claim msg)] ∧ msg.user = id record.node := by
  obtain ⟨only, user⟩ := stepped.effect.claims stepped.inv (mem_visible_publish.mpr published)
  exact ⟨only, user.trans stepped.own⟩

theorem Reaches.claimed (reached : Reaches id Once net) (peer : Peer) :
    (net.nodes peer).matchMap.All fun key entry => ∀ claim ∈ entry.claimsSeen,
      ∃ record ∈ net.history, .publish (.claim ⟨key, claim.1, claim.2⟩) ∈ record.outputs := by
  apply reached.everywhere fun history _ manager => manager.matchMap.All fun key entry =>
    ∀ claim ∈ entry.claimsSeen,
      ∃ record ∈ history, .publish (.claim ⟨key, claim.1, claim.2⟩) ∈ record.outputs
  · exact fun _ => AList.All.empty
  · intro history record peer manager _ kept
    refine kept.imp fun key entry published claim member => ?_
    obtain ⟨old, isOld, isPublished⟩ := published claim member
    exact ⟨old, List.mem_append_left _ isOld, isPublished⟩
  · intro net peer step reached allowed kept
    obtain ⟨inv, own⟩ := Reaches.inv reached peer
    have effect := (net.nodes peer).react_effect inv step.toInput
    let record := net.answer MatchManager.peer peer step
    have closed : Closed
        (fun key (entry : MatchState SearchCounter) => ∀ claim ∈ entry.claimsSeen,
          ∃ old ∈ net.history ++ [record],
            .publish (.claim ⟨key, claim.1, claim.2⟩) ∈ old.outputs) (fun _ => True)
        fun msg => ∃ old ∈ net.history ++ [record], .publish (.claim msg) ∈ old.outputs := by
      refine ⟨fun _ _ _ claim member => ?_, fun _ _ _ kept => kept, ?_⟩
      · exact absurd member (List.not_mem_nil)
      · intro entry user counter published _ kept claim member
        rcases List.mem_append.mp member with before | now
        · exact kept claim before
        · rw [List.mem_singleton.mp now]
          exact published
    refine effect.all closed inv.keyed (fun _ _ => trivial) (fun msg isPublished => ?_)
      (fun _ _ => trivial) (fun msg received => ?_)
      (kept.imp fun key entry published claim member => ?_)
    · exact ⟨record, by simp, mem_visible_publish.mp isPublished⟩
    · obtain ⟨old, isOld, isPublished⟩ := sent_of_lossy (once_lossy _ _ _ allowed) received
      exact ⟨old, List.mem_append_left _ isOld, isPublished⟩
    · obtain ⟨old, isOld, isPublished⟩ := published claim member
      exact ⟨old, List.mem_append_left _ isOld, isPublished⟩

theorem mem_sent_claim {history : List (PeerRecord Peer SearchCounter)} {peer : Peer}
    {search : Nat} {msg : MatchClaimMessage SearchCounter} :
    .claim msg ∈ sent history peer search ↔ msg.counter.search = search ∧
      ∃ record ∈ history, record.node = peer ∧ .publish (.claim msg) ∈ record.outputs := by
  constructor
  · intro member
    obtain ⟨record, isRecord, member⟩ := List.mem_flatMap.mp member
    split at member
    next atPeer =>
      obtain ⟨output, isOutput, pursuit⟩ := List.mem_filterMap.mp member
      cases output with
      | listener | callback => cases pursuit
      | publish msg' =>
        cases msg' with
        | unadvertise | ack => cases pursuit
        | advertise => simp [Output.pursuit] at pursuit
        | claim msg' =>
          obtain ⟨number, rfl⟩ : msg'.counter.search = search ∧ msg' = msg := by
            simpa [Output.pursuit] using pursuit
          exact ⟨number, record, isRecord, atPeer, isOutput⟩
    next => cases member
  · rintro ⟨number, record, isRecord, rfl, published⟩
    refine List.mem_flatMap.mpr ⟨record, isRecord, ?_⟩
    rw [if_pos rfl]
    exact mem_pursuits_claim published number

theorem sent_split {earlier later : List (PeerRecord Peer SearchCounter)}
    {record : PeerRecord Peer SearchCounter} (search : Nat) :
    sent (earlier ++ record :: later) record.node search = sent earlier record.node search ++
      (pursuits search (visible record.outputs) ++ sent later record.node search) := by
  rw [sent_append, pursuits_visible]
  simp [sent]

theorem recorded_at (reached : Reaches id Once net) {i : Nat} {record : PeerRecord Peer SearchCounter}
    (found : net.history[i]? = some record) :
    ∃ past : Peers Peer SearchCounter, Reaches id Once past ∧ past.history = net.history.take i ∧
      Once (net.history.take i) record.node record.input ∧
        record.before = past.nodes record.node := by
  obtain ⟨past, pastReached, history, allowed, answered⟩ := reached.recorded (split_at found)
  exact ⟨past, pastReached, history, allowed, congrArg Record.before answered⟩

theorem Reaches.silent_after_end (reached : Reaches id Once net)
    {earlier later : List (PeerRecord Peer SearchCounter)} {record : PeerRecord Peer SearchCounter}
    (split : net.history = earlier ++ record :: later) {agent : MatchAgent SearchCounter}
    {result : MatchState SearchCounter} (ends : Completes record.outputs agent result) :
    sent later record.node agent.counter.search = [] := by
  rw [sent, List.flatMap_eq_nil_iff]
  intro after member
  split
  next atPeer =>
    obtain ⟨between, rest, rfl⟩ := List.append_of_mem member
    rw [← List.cons_append, ← List.append_assoc] at split
    obtain ⟨past, pastReached, history, allowed, answered⟩ := reached.recorded split
    have numbered := Reaches.numbered pastReached after.node
    have before : after.before = past.nodes after.node := congrArg Record.before answered
    rw [history, ← before] at numbered
    have stepped := Reaches.stepped reached (split ▸ List.mem_append_right _ List.mem_cons_self)
    rw [← pursuits_visible]
    cases stepped.effect.searches stepped.inv with
    | rests _ adverts claims => exact pursuits_eq_nil adverts claims
    | searches held after' targetMatch counter callback acts search keyed same agent' =>
      have unended := (numbered.acting rfl acts fun targetMatch callback called =>
        once_fresh allowed targetMatch counter callback called).2 record (by simp) atPeer.symm agent
          result ends
      rw [pursuits, List.filterMap_eq_nil_iff]
      intro output isOutput
      cases output with
      | listener | callback => rfl
      | publish msg =>
        cases msg with
        | unadvertise | ack => rfl
        | advertise msg =>
          simp [Output.pursuit, search.advertised isOutput, MatchManager.advert, unended]
        | claim msg => simp [Output.pursuit, (search.claimed isOutput).2.2, unended]
  next => rfl

end Network

end RoundTable.Matcher
