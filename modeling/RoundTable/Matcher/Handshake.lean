import RoundTable.Matcher.Completions
import RoundTable.Matcher.Pairing

set_option autoImplicit false

namespace RoundTable.Matcher

open Reactive

variable {Counter : Type}

namespace MatchManager

structure Rested (manager : MatchManager Counter) : Prop where
  idle : manager.matchAgent.state = .idle
  empty : ∀ key, manager.matchMap.lookup key = none

structure Sees (manager : MatchManager Counter) (matchId game : String) : Prop where
  idle : manager.matchAgent.state = .idle
  held : ∃ entry, manager.matchMap.lookup matchId = some entry ∧
    joinable [game] manager.matchAgent.id entry = true
  only : ∀ key entry, manager.matchMap.lookup key = some entry → key = matchId

structure Waits (manager : MatchManager Counter) (matchId : String) (callback : Callback) :
    Prop where
  held : ∃ entry, manager.matchMap.lookup matchId = some entry
  waiting : manager.matchAgent.matchCallback = some callback

end MatchManager

section Moves

variable {manager after : MatchManager Counter} {actions : List (Output Counter)}
variable {game matchId : String} {counter : Counter} {callback : Callback}

theorem Effect.stays_empty (effect : Effect manager .stopMatch actions after)
    (empty : ∀ key, manager.matchMap.lookup key = none) (key : String) :
    after.matchMap.lookup key = none := by
  have dropped (matchId : String) : (manager.drop matchId).matchMap.lookup key = none := by
    simp [MatchManager.drop, AList.lookup_erase_of, empty]
  cases effect with
  | quiet => exact empty key
  | unadvertised matchId _ throws => cases throws <;> exact dropped matchId
  | stopped _ throws => cases throws <;> exact empty key

theorem Effect.serves_game
    (effect : Effect manager (.findMatch [game] counter callback) actions after)
    (rested : manager.Rested) :
    let matchId := getMatchID manager.matchAgent.id (.string game)
    after.Serves matchId ∧ after.Waits matchId callback ∧
      .publish (.advertise ⟨manager.matchAgent.id, .string game, counter⟩) ∈ actions := by
  intro matchId
  have entry_new (seen : Int) :
      manager.matchMap.advertised (manager.advert [game] counter) seen =
        .new manager.matchAgent.id counter (.string game) seen := by
    unfold MatchMap.advertised
    rw [rested.empty]
    rfl
  cases effect with
  | quiet _ quiet => exact absurd rested.idle quiet
  | started _ _ _ _ _ _ search =>
    cases search with
    | join entry now held => rw [rested.empty] at held; cases held
    | serve entry now seen closed own unclaimed =>
      obtain rfl := own.trans (entry_new seen)
      exact ⟨⟨rfl, rfl⟩, ⟨⟨_, AList.lookup_insert _⟩, rfl⟩, List.mem_singleton_self _⟩
    | fill entry now seen user claimCounter rest closed own claims =>
      obtain rfl := own.trans (entry_new seen)
      cases claims

theorem Effect.sees_game {user : PublicKey}
    (effect : Effect manager (.receive (.advertise ⟨user, .string game, counter⟩)) actions after)
    (rested : manager.Rested) (other : user ≠ manager.matchAgent.id) :
    after.Sees (getMatchID user (.string game)) game := by
  cases effect with
  | quiet _ quiet => exact quiet.elim
  | advertised _ seen =>
    have entry_new : manager.matchMap.advertised ⟨user, .string game, counter⟩ seen =
        .new user counter (.string game) seen := by
      unfold MatchMap.advertised
      rw [rested.empty]
    rw [entry_new]
    refine ⟨rested.idle, ⟨_, AList.lookup_insert _, ?_⟩, fun key entry held => ?_⟩
    · simp [joinable, MatchState.new, MatchManager.put, other]
    · rw [MatchManager.put, AList.lookup_insert_of, rested.empty] at held
      split at held
      next same => exact same
      next => cases held

theorem Effect.claims_game
    (effect : Effect manager (.findMatch [game] counter callback) actions after)
    (sees : manager.Sees matchId game) :
    after.Joins matchId ∧ after.Waits matchId callback ∧
      .publish (.claim ⟨matchId, manager.matchAgent.id, counter⟩) ∈ actions := by
  obtain ⟨seen, isSeen, fits⟩ := sees.held
  cases effect with
  | quiet _ quiet => exact absurd sees.idle quiet
  | started _ _ _ _ _ _ search =>
    cases search with
    | join entry now held =>
      obtain rfl := sees.only _ _ held
      refine ⟨⟨rfl, rfl⟩, ⟨?_, rfl⟩, List.mem_singleton_self _⟩
      simp only [MatchManager.joining]
      split
      next => exact ⟨entry, held⟩
      next => exact ⟨_, AList.lookup_insert _⟩
    | serve _ _ _ closed | fill _ _ _ _ _ _ closed =>
      rw [closed _ _ isSeen] at fits
      cases fits

theorem Effect.hosts_claim {user : PublicKey} (inv : manager.Inv)
    (effect : Effect manager (.receive (.claim ⟨matchId, user, counter⟩)) actions after)
    (serves : manager.Serves matchId) (waits : manager.Waits matchId callback) :
    after.matchAgent.state = .idle ∧ ∃ agent result, result.matchId = matchId ∧
      Hosts actions agent result (user, counter) ∧
        .callback agent callback (some result) ∈ actions := by
  obtain ⟨entry, held⟩ := waits.held
  have unclaimed := inv.unclaimed serves.1 _ entry held serves.2
  cases effect with
  | quiet _ quiet =>
    obtain ⟨claim, member, -⟩ := quiet entry held
    rw [unclaimed] at member
    cases member
  | claimed _ _ _ _ _ elsewhere => exact absurd serves elsewhere
  | hosted entry user counter callback' _ first _ waiting =>
    obtain rfl := Option.some.inj (waiting.symm.trans waits.waiting)
    let result := (entry.pushClaim user counter).pushAck user
    have called : .callback manager.matchAgent callback' (some result) ∈
        [.publish (.ack ⟨entry.matchId, user⟩), .publish (.ack ⟨entry.matchId, user⟩),
          Output.callback manager.matchAgent callback' (some result)] := by simp
    refine ⟨rfl, _, result, rfl, ⟨⟨callback', called⟩, serves.1, serves.2, ?first, ?acked⟩, called⟩
    case first => simp [result, MatchState.pushClaim, first]
    case acked => simp [result]

theorem Effect.joins_game
    (effect : Effect manager (.receive (.ack ⟨matchId, manager.matchAgent.id⟩)) actions after)
    (joins : manager.Joins matchId) (waits : manager.Waits matchId callback) :
    after.matchAgent.state = .idle ∧ ∃ agent result, result.matchId = matchId ∧
      .callback agent callback (some result) ∈ actions := by
  obtain ⟨entry, held⟩ := waits.held
  generalize named : manager.matchAgent.id = user at effect
  cases effect with
  | quiet _ quiet => rw [quiet] at held; cases held
  | filled _ _ _ elsewhere => exact absurd joins elsewhere
  | joined entry callback' _ _ waiting =>
    obtain rfl := Option.some.inj (waiting.symm.trans waits.waiting)
    exact ⟨rfl, _, entry.pushAck manager.matchAgent.id, rfl, List.mem_singleton_self _⟩
  | passedOver _ _ _ _ _ _ _ _ other => exact absurd named.symm other

end Moves

section Expiry

variable (manager : MatchManager Counter)

namespace MatchManager

-- From some time on, every entry is out of date.
theorem exists_expiry : ∃ start : Int, ∀ key entry, manager.matchMap.lookup key = some entry →
    advertiseTimeout + entry.lastSeen < start := by
  obtain ⟨last, bounds⟩ := ((manager.matchMap.entries.map (·.2)).map
    MatchState.lastSeen).toFinset.exists_le
  refine ⟨advertiseTimeout + last + 1, fun key entry held => ?_⟩
  have seen : entry.lastSeen ≤ last := by
    apply bounds
    rw [List.mem_toFinset]
    exact List.mem_map_of_mem (AList.mem_values.mpr ⟨key, held⟩)
  omega

variable {env : Env Counter} (clean : env.realm = .pristine)

include clean

theorem expires {start : Int} (late : start ≤ env.clock 0)
    (expiry : ∀ key entry, manager.matchMap.lookup key = some entry →
      advertiseTimeout + entry.lastSeen < start) (time : Int) (key : String) :
    (manager.handle env (.checkTimeouts time)).1.matchMap.lookup key = none := by
  obtain ⟨map, handled, fresh⟩ := checkTimeouts_handle env clean manager time
  rw [handled, fresh]
  cases held : manager.matchMap.lookup key with
  | none => rfl
  | some entry =>
    have passed := expiry key entry held
    have expired : entry.fresh (env.clock 0) = false := decide_eq_false (by omega)
    simp [expired]

theorem stops (inv : manager.Inv) (returns : env.callbackThrows 0 = false) :
    (manager.handle env .stopMatch).1.matchAgent.state = .idle := by
  by_cases idle : manager.matchAgent.state = .idle
  · have handled : manager.handle env .stopMatch = (manager, []) := by
      simp [handle, Event.handler, Handler.turn, stopMatch, idle]
    rw [handled]
    exact idle
  · rw [manager.stopMatch_agent inv env clean idle, returns]
    rfl

end MatchManager

end Expiry

section Network

variable {Peer : Type}

-- Two peers take steps in one world, and receive nothing but what one of them has published.
def Between (host guest : Peer) (env : Env Counter) :
    Network.Enabled Peer (MatchManager Counter) (PeerInput Counter) (Output Counter) :=
  fun history peer step =>
    Lossy history peer step ∧ (peer = host ∨ peer = guest) ∧ step.env = env ∧
      ∀ packet sender msg, step.packet = some packet →
        published history packet = some (sender, msg) → sender = host ∨ sender = guest

section Between

variable {host guest peer : Peer} {env : Env Counter} (clean : env.realm = .pristine)
variable {history : List (PeerRecord Peer Counter)} (mover : peer = host ∨ peer = guest)

include mover

theorem between_calls {event : Event Counter} (calls : Lossy history peer ⟨⟨env, event, clean⟩, none⟩) :
    Between host guest env history peer ⟨⟨env, event, clean⟩, none⟩ :=
  ⟨calls, mover, rfl, by simp⟩

theorem between_receives {sender : Peer} (isSender : sender = host ∨ sender = guest)
    {packet : Packet} {msg : Message Counter}
    (isPublished : published history packet = some (sender, msg)) :
    Between host guest env history peer ⟨⟨env, .receive msg, clean⟩, some packet⟩ := by
  refine ⟨⟨packet, sender, rfl, isPublished⟩, mover, rfl, ?_⟩
  intro packet' other msg' same alike
  obtain rfl := Option.some.inj same
  obtain ⟨rfl, -⟩ := Prod.mk.inj (Option.some.inj (isPublished.symm.trans alike))
  exact isSender

end Between

/-- Two peers end their searches with each other: a host, for which the claim of the guest is the
first, and the guest that it acknowledges. -/
structure Paired (id : Peer → PublicKey) (host guest : Peer) (matchId : String)
    (hosted joined : Callback) (counter : Counter) (records : List (PeerRecord Peer Counter)) :
    Prop where
  hosts : ∃ record ∈ records, record.node = host ∧ ∃ agent result, result.matchId = matchId ∧
    Hosts record.outputs agent result (id guest, counter) ∧
      .callback agent hosted (some result) ∈ record.outputs
  joins : ∃ record ∈ records, record.node = guest ∧ ∃ agent result, result.matchId = matchId ∧
    .callback agent joined (some result) ∈ record.outputs

theorem Paired.after {id : Peer → PublicKey} {host guest : Peer} {matchId : String}
    {hosted joined : Callback} {counter : Counter} {records : List (PeerRecord Peer Counter)}
    (paired : Paired id host guest matchId hosted joined counter records)
    (before : List (PeerRecord Peer Counter)) :
    Paired id host guest matchId hosted joined counter (before ++ records) := by
  obtain ⟨hosting, member, ended⟩ := paired.hosts
  obtain ⟨joining, member', ended'⟩ := paired.joins
  exact ⟨⟨hosting, List.mem_append_right _ member, ended⟩,
    ⟨joining, List.mem_append_right _ member', ended'⟩⟩

variable [DecidableEq Peer] [IntCast Counter] {id : Peer → PublicKey} {net : Peers Peer Counter}

structure Move (id : Peer → PublicKey) (host guest : Peer) (env : Env Counter)
    (net : Peers Peer Counter) (peer : Peer) (event : Event Counter) (net' : Peers Peer Counter)
    (record : PeerRecord Peer Counter) : Prop where
  continues : Network.Continues MatchManager.peer (Between host guest env) net net'
  reached : Reaches id Lossy net'
  history : net'.history = net.history ++ [record]
  node : record.node = peer
  effect : Effect (net.nodes peer) event (visible record.outputs) (net'.nodes peer)
  handled : net'.nodes peer = ((net.nodes peer).handle env event).1
  others : ∀ other, other ≠ peer → net'.nodes other = net.nodes other
  published : ∀ msg, .publish msg ∈ visible record.outputs →
    ∃ packet, published net'.history packet = some (peer, msg)

variable (host guest : Peer) {env : Env Counter} (clean : env.realm = .pristine)

theorem Reaches.move (reached : Reaches id Lossy net) {peer : Peer} (event : Event Counter)
    {packet : Option Packet}
    (allowed : Between host guest env net.history peer ⟨⟨env, event, clean⟩, packet⟩) :
    ∃ net' record, Move id host guest env net peer event net' record := by
  let step : PeerInput Counter := ⟨⟨env, event, clean⟩, packet⟩
  let record := net.answer MatchManager.peer peer step
  refine ⟨net.advance MatchManager.peer peer step, record, ?continues, ?reached, rfl, rfl, ?effect,
    Network.advance_self .., fun other distinct => Network.advance_other _ _ _ distinct,
    fun msg member => ?published⟩
  case continues => exact Network.Continues.advance .refl allowed
  case reached => exact .step net peer step reached allowed.1
  case effect =>
    rw [Network.advance_self]
    exact (net.nodes peer).react_effect (Reaches.inv reached peer).1 step.toInput
  case published =>
    obtain ⟨place, found⟩ := List.getElem?_of_mem (mem_visible_publish.mp member)
    exact ⟨(net.history.length, place), published_iff.mpr ⟨record, by simp [record], rfl, found⟩⟩

include clean

theorem Reaches.rest (reached : Reaches id Lossy net) {peer : Peer}
    (mover : peer = host ∨ peer = guest) {start : Int} (late : start ≤ env.clock 0)
    (returns : env.callbackThrows 0 = false)
    (expiry : ∀ key entry, (net.nodes peer).matchMap.lookup key = some entry →
      advertiseTimeout + entry.lastSeen < start) :
    ∃ net', Network.Continues MatchManager.peer (Between host guest env) net net' ∧
      (net'.nodes peer).Rested ∧ ∀ other, other ≠ peer → net'.nodes other = net.nodes other := by
  obtain ⟨net₁, _, forgets⟩ := Reaches.move host guest clean reached (.checkTimeouts 0)
    (between_calls clean mover trivial)
  obtain ⟨net₂, _, stops⟩ := Reaches.move host guest clean forgets.reached .stopMatch
    (between_calls clean mover trivial)
  have empty (key : String) : (net₁.nodes peer).matchMap.lookup key = none := by
    rw [forgets.handled]
    exact (net.nodes peer).expires clean late expiry 0 key
  have idle : (net₂.nodes peer).matchAgent.state = .idle := by
    rw [stops.handled]
    exact (net₁.nodes peer).stops clean (Reaches.inv forgets.reached peer).1 returns
  exact ⟨net₂, forgets.continues.trans stops.continues, ⟨idle, stops.effect.stays_empty empty⟩,
    fun other distinct => (stops.others other distinct).trans (forgets.others other distinct)⟩

variable {host guest}

theorem Reaches.handshake (reached : Reaches id Lossy net) (different : id host ≠ id guest)
    (hostRested : (net.nodes host).Rested) (guestRested : (net.nodes guest).Rested)
    (game : String) (hostCounter counter : Counter) (hosted joined : Callback) :
    ∃ net' records, Network.Continues MatchManager.peer (Between host guest env) net net' ∧
      net'.history = net.history ++ records ∧
        (net'.nodes host).matchAgent.state = .idle ∧ (net'.nodes guest).matchAgent.state = .idle ∧
          Paired id host guest (getMatchID (id host) (.string game)) hosted joined counter records := by
  have distinct : guest ≠ host := fun same => different (congrArg id same).symm
  have own {past : Peers Peer Counter} (reached : Reaches id Lossy past) (peer : Peer) :=
    (Reaches.inv reached peer).2
  -- the host advertises the game
  obtain ⟨net₁, search, searches⟩ := Reaches.move host guest clean reached
    (.findMatch [game] hostCounter hosted) (between_calls clean (.inl rfl) trivial)
  obtain ⟨serves, waits, advertises⟩ := searches.effect.serves_game hostRested
  obtain ⟨advert, advertised⟩ := searches.published _ advertises
  rw [own reached host] at serves waits advertised
  -- the guest hears of it, and claims it
  obtain ⟨net₂, hearing, hears⟩ := Reaches.move host guest clean searches.reached
    (.receive (.advertise ⟨id host, .string game, hostCounter⟩))
    (between_receives clean (.inr rfl) (.inl rfl) advertised)
  have heard := hears.effect
  rw [searches.others guest distinct] at heard
  have sees := heard.sees_game guestRested (by rw [own reached guest]; exact different)
  generalize getMatchID (id host) (.string game) = matchId at *
  obtain ⟨net₃, claiming, claims⟩ := Reaches.move host guest clean hears.reached
    (.findMatch [game] counter joined) (between_calls clean (.inr rfl) trivial)
  obtain ⟨joins, waiting, claimed⟩ := claims.effect.claims_game sees
  obtain ⟨claim, isClaimed⟩ := claims.published _ claimed
  rw [own hears.reached guest] at isClaimed
  -- the host acknowledges the claim
  obtain ⟨net₄, hosting, hosts⟩ := Reaches.move host guest clean claims.reached
    (.receive (.claim ⟨matchId, id guest, counter⟩))
    (between_receives clean (.inl rfl) (.inr rfl) isClaimed)
  have accepts := hosts.effect
  rw [claims.others host distinct.symm, hears.others host distinct.symm] at accepts
  obtain ⟨hostIdle, hostAgent, hostResult, hostMatch, ended, hostCalled⟩ :=
    accepts.hosts_claim (Reaches.inv searches.reached host).1 serves waits
  obtain ⟨ack, acked⟩ := hosts.published _ (hostMatch ▸ ended.acked)
  -- the guest joins
  obtain ⟨net₅, joining, enters⟩ := Reaches.move host guest clean hosts.reached
    (.receive (.ack ⟨matchId, id guest⟩)) (between_receives clean (.inr rfl) (.inl rfl) acked)
  have entered := enters.effect
  rw [hosts.others guest distinct, ← own claims.reached guest] at entered
  obtain ⟨guestIdle, guestAgent, guestResult, guestMatch, guestCalled⟩ :=
    entered.joins_game joins waiting
  have continues := searches.continues.trans (hears.continues.trans
    (claims.continues.trans (hosts.continues.trans enters.continues)))
  refine ⟨net₅, [search, hearing, claiming, hosting, joining], continues, ?history, ?hostIdle,
    guestIdle, ?hosted, ?joined⟩
  case history =>
    rw [enters.history, hosts.history, claims.history, hears.history, searches.history]
    simp
  case hostIdle => rw [enters.others host distinct.symm]; exact hostIdle
  case hosted =>
    exact ⟨hosting, by simp, hosts.node, hostAgent, hostResult, hostMatch,
      hosts_visible.mp ended, mem_visible_callback.mp hostCalled⟩
  case joined =>
    exact ⟨joining, by simp, enters.node, guestAgent, guestResult, guestMatch,
      mem_visible_callback.mp guestCalled⟩

omit clean in
/-- Whatever has happened, there is a time from which on any two peers can be paired on any game,
each by a search of its own. -/
theorem Reaches.pairs_again (reached : Reaches id Lossy net) (different : id host ≠ id guest)
    (game : String) (hostCounter counter : Counter) (hosted joined : Callback) :
    ∃ start : Int, ∀ env : Env Counter, env.realm = .pristine → (∀ query, start ≤ env.clock query) →
      (∀ call, env.callbackThrows call = false) →
        ∃ net' records, Network.Continues MatchManager.peer (Between host guest env) net net' ∧
          net'.history = net.history ++ records ∧ (net'.nodes host).matchAgent.state = .idle ∧
            (net'.nodes guest).matchAgent.state = .idle ∧
              Paired id host guest (getMatchID (id host) (.string game)) hosted joined counter
                records := by
  have distinct : guest ≠ host := fun same => different (congrArg id same).symm
  obtain ⟨hostStart, hostExpiry⟩ := (net.nodes host).exists_expiry
  obtain ⟨guestStart, guestExpiry⟩ := (net.nodes guest).exists_expiry
  refine ⟨max hostStart guestStart, fun env clean late returns => ?_⟩
  have passed := late 0
  have lossy (history : List (PeerRecord Peer Counter)) (peer : Peer) (step : PeerInput Counter)
      (allowed : Between host guest env history peer step) : Lossy history peer step := allowed.1
  obtain ⟨net₁, hostRests, hostRested, hostAlone⟩ := Reaches.rest host guest clean reached
    (.inl rfl) (by omega) (returns 0) hostExpiry
  rw [← hostAlone guest distinct] at guestExpiry
  obtain ⟨net₂, guestRests, guestRested, guestAlone⟩ := Reaches.rest host guest clean
    (Network.Continues.reachable lossy reached hostRests) (.inr rfl) (by omega) (returns 0)
    guestExpiry
  rw [← guestAlone host distinct.symm] at hostRested
  have rests := hostRests.trans guestRests
  obtain ⟨net₃, records, pairs, history, hostIdle, guestIdle, paired⟩ := Reaches.handshake clean
    (Network.Continues.reachable lossy reached rests) different hostRested guestRested game
    hostCounter counter hosted joined
  obtain ⟨before, rested⟩ := Network.Continues.history rests
  refine ⟨net₃, before ++ records, rests.trans pairs, ?history, hostIdle, guestIdle,
    paired.after before⟩
  case history => rw [history, rested, List.append_assoc]

end Network

end RoundTable.Matcher
