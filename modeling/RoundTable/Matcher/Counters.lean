import RoundTable.Matcher.FirstClaim
import RoundTable.Matcher.Results

set_option autoImplicit false

namespace RoundTable.Matcher

open Reactive

variable {Counter : Type}

def MatchState.recorded (entry : MatchState Counter) (user : PublicKey) : Option Counter :=
  if entry.advertiser = user then some entry.advertiserCounter
  else (entry.claimsSeen.find? fun claim => claim.1 = user).map (·.2)

-- The counter with which a received message advertises or claims a match for a user.
def Event.counter (matchId : String) (user : PublicKey) : Event Counter → Option Counter
  | .receive (.advertise msg) =>
    if getMatchID msg.advertiser msg.match_ = matchId ∧ msg.advertiser = user then some msg.counter
    else none
  | .receive (.claim msg) =>
    if msg.matchId = matchId ∧ msg.user = user then some msg.counter else none
  | _ => none

def countersHeard (matchId : String) (user : PublicKey) (moments : List (Moment Counter)) :
    List Counter :=
  moments.filterMap fun moment => moment.input.event.counter matchId user

/-- A result has the counter of the search for the agent, and for whoever it is paired with the one
that was heard last. -/
structure CurrentCounters [IntCast Counter] (moments : List (Moment Counter))
    (agent : MatchAgent Counter) (result : MatchState Counter) : Prop where
  own : result.getCounter agent.id = agent.counter
  other : ∀ user, user ≠ agent.id →
    (user = result.advertiser ∨ result.claimsSeen.head?.map (·.1) = some user) →
      (countersHeard result.matchId user moments).getLast? = some (result.getCounter user)

namespace MatchManager

def pick (manager : MatchManager Counter) (env : Env Counter) (targetMatch : List String) :
    Option (MatchState Counter) :=
  (env.shuffle 0 (manager.matchMap.entries.map (·.2))).find?
    (joinable targetMatch manager.matchAgent.id)

inductive Begins (manager : MatchManager Counter) :
    Event Counter → MatchManager Counter → List String → Counter → Prop where
  | started (targetMatch : List String) (counter : Counter) (callback : Callback)
      (idle : manager.matchAgent.state = .idle) :
      Begins manager (.findMatch targetMatch counter callback) manager targetMatch counter
  | restarted (time : Int) (targetMatch : List String) (due : manager.RestartDue time)
      (targets : manager.matchAgent.targetMatch = some targetMatch) :
      Begins manager (.poll time) manager targetMatch manager.matchAgent.counter
  | passedOver (entry : MatchState Counter) (user : PublicKey) (targetMatch : List String)
      (held : manager.matchMap.lookup entry.matchId = some entry)
      (joins : manager.Joins entry.matchId) (other : user ≠ manager.matchAgent.id)
      (targets : manager.matchAgent.targetMatch = some targetMatch) :
      Begins manager (.receive (.ack ⟨entry.matchId, user⟩)) (manager.put (entry.pushAck user))
        targetMatch manager.matchAgent.counter

end MatchManager

/-- No message that is handled in a step brings a counter that differs from the one in the entry for
its match: not one from another, and not the claim or the advert of a search. No advert creates the
entry that the agent waits for again, which would have lost its claim. -/
structure CountersAgree (moment : Moment Counter) : Prop where
  received : ∀ matchId user counter, moment.input.event.counter matchId user = some counter →
    user ≠ moment.before.matchAgent.id →
      ∀ entry, moment.before.matchMap.lookup matchId = some entry →
        ∀ known, entry.recorded user = some known → known = counter
  created : ∀ msg, moment.input.event = .receive (.advertise msg) →
    moment.before.matchAgent.matchId = some (getMatchID msg.advertiser msg.match_) →
      moment.before.matchMap.lookup (getMatchID msg.advertiser msg.match_) = none →
        msg.advertiser = moment.before.matchAgent.id ∧
          msg.counter = moment.before.matchAgent.counter
  joined : ∀ found targetMatch counter,
    moment.before.Begins moment.input.event found targetMatch counter →
      ∀ entry, found.pick moment.input.env targetMatch = some entry →
        ∀ known, entry.recorded moment.before.matchAgent.id = some known → known = counter
  served : ∀ found targetMatch counter,
    moment.before.Begins moment.input.event found targetMatch counter →
      found.pick moment.input.env targetMatch = none → ∀ entry,
        found.matchMap.lookup (getMatchID moment.before.matchAgent.id (advertised targetMatch)) =
          some entry → entry.recorded moment.before.matchAgent.id = some counter

section Recorded

variable (entry : MatchState Counter) (user : PublicKey)

theorem getCounter_of_recorded [IntCast Counter] {entry : MatchState Counter} {user : PublicKey}
    {counter : Counter} (recorded : entry.recorded user = some counter) :
    entry.getCounter user = counter := by
  unfold MatchState.recorded at recorded
  unfold MatchState.getCounter
  split at recorded
  next own =>
    rw [if_pos own]
    exact Option.some.inj recorded
  next other =>
    obtain ⟨claim, found, rfl⟩ := Option.map_eq_some_iff.mp recorded
    rw [if_neg other, found]

@[simp] theorem recorded_pushAck (acked : PublicKey) :
    (entry.pushAck acked).recorded user = entry.recorded user := rfl

@[simp] theorem recorded_acknowledged (acked : PublicKey) :
    (entry.acknowledged acked).recorded user = entry.recorded user := by
  unfold MatchState.acknowledged
  split <;> rfl

theorem recorded_pushClaim (claimant : PublicKey) (counter : Counter) :
    (entry.pushClaim claimant counter).recorded user =
      (entry.recorded user).or (if claimant = user then some counter else none) := by
  unfold MatchState.recorded MatchState.pushClaim
  by_cases own : entry.advertiser = user
  · simp [own]
  · simp only [own, if_false, List.find?_append]
    cases entry.claimsSeen.find? (fun claim => claim.1 = user) <;>
      by_cases claims : claimant = user <;> simp [claims]

theorem recorded_new (msg : MatchAdvertiseMessage Counter) (seen : Int) :
    (MatchState.new msg.advertiser msg.counter msg.match_ seen).recorded user =
      if msg.advertiser = user then some msg.counter else none := rfl

theorem exists_recorded
    (named : user = entry.advertiser ∨ user ∈ entry.claimsSeen.map (·.1)) :
    ∃ counter, entry.recorded user = some counter := by
  rw [← Option.isSome_iff_exists]
  unfold MatchState.recorded
  split
  next => rfl
  next other =>
    obtain rfl | claims := named
    · exact absurd rfl other
    · obtain ⟨claim, member, rfl⟩ := List.mem_map.mp claims
      rw [Option.isSome_map, List.find?_isSome]
      exact ⟨claim, member, decide_eq_true rfl⟩

end Recorded

section Picks

variable (env : Env Counter) (clean : env.realm = .pristine)

include clean

theorem search_picks (depth : Nat) (targetMatch : List String) (counter : Counter)
    (callback : Callback) (manager : MatchManager Counter) (keyed : manager.matchMap.Keyed)
    {msg : MatchClaimMessage Counter}
    (published : .publish (.claim msg) ∈ (Turn.search env (Turn.update env (depth + 2)) targetMatch
      counter callback ⟨manager, 0, []⟩).outputs) :
    ∃ entry, manager.pick env targetMatch = some entry ∧ entry.matchId = msg.matchId := by
  rw [← mem_visible_publish] at published
  cases found : manager.pick env targetMatch with
  | some entry =>
    have held := found_held env targetMatch ⟨manager, 0, []⟩ keyed found
    rw [(search_join env clean (depth + 1) targetMatch counter callback ⟨manager, 0, []⟩ entry held
      found).2] at published
    obtain rfl : msg = _ := by simpa using published
    exact ⟨entry, rfl, rfl⟩
  | none =>
    have advertised := search_advertise env clean depth targetMatch counter callback
      ⟨manager, 0, []⟩ keyed found
    simp only at advertised
    split at advertised <;> simp [advertised.2, mem_acks] at published

theorem restart_picks (depth : Nat) (manager : MatchManager Counter) (targetMatch : List String)
    (callback : Callback) (busy : manager.matchAgent.state ≠ .idle)
    (targets : manager.matchAgent.targetMatch = some targetMatch)
    (waiting : manager.matchAgent.matchCallback = some callback) (keyed : manager.matchMap.Keyed)
    {msg : MatchClaimMessage Counter}
    (published : .publish (.claim msg) ∈
      ((restartMatch env (handleMatchStateUpdate env (depth + 2))).turn ⟨manager, 0, []⟩).outputs) :
    ∃ entry, manager.pick env targetMatch = some entry ∧ entry.matchId = msg.matchId := by
  rw [Handler.turn, restartMatch_run env clean _ targetMatch callback _ busy targets waiting]
    at published
  exact search_picks env clean depth targetMatch _ callback
    { manager with matchAgent := { manager.matchAgent with state := .idle } } keyed published

variable {manager found : MatchManager Counter} {event : Event Counter} {targetMatch : List String}
variable {counter : Counter} (begins : manager.Begins event found targetMatch counter)

include begins

omit clean in
theorem MatchManager.Begins.same_agent : found.matchAgent = manager.matchAgent := by
  cases begins <;> rfl

omit clean in
theorem MatchManager.Begins.keyed (keyed : manager.matchMap.Keyed) : found.matchMap.Keyed := by
  cases begins with
  | started | restarted => exact keyed
  | passedOver => exact keyed.insert rfl

theorem MatchManager.Begins.picks (inv : manager.Inv) {msg : MatchClaimMessage Counter}
    (published : .publish (.claim msg) ∈ (manager.handle env event).2) :
    ∃ entry, found.pick env targetMatch = some entry ∧ entry.matchId = msg.matchId := by
  have foundKeyed := begins.keyed inv.keyed
  obtain ⟨depth, deep⟩ := Nat.exists_eq_add_of_le' env.stack_deep
  cases begins with
  | started targetMatch counter callback idle =>
    rw [findMatch_handle env clean manager _ _ _ idle, deep] at published
    exact search_picks env clean (depth + 1) _ _ _ manager foundKeyed published
  | restarted time targetMatch due targets =>
    have busy := RestartDue.busy due
    obtain ⟨-, callback, -, -, waiting, -⟩ := inv.consistent.waits busy
    rw [poll_handle env manager inv due, deep] at published
    exact restart_picks env clean (depth + 1) manager targetMatch callback busy targets waiting
      foundKeyed published
  | passedOver entry user targetMatch held joins other targets =>
    obtain ⟨-, callback, -, -, waiting, -⟩ := inv.consistent.waits (by simp [joins.1])
    rw [ack_handle env clean inv user held, deep] at published
    simp only [ack_restarts env clean inv user held (depth + 2) joins (Ne.symm other),
      Turn.setMap_outputs] at published
    rw [← mem_visible_publish, visible_tell, mem_visible_publish] at published
    have busy : (manager.put (entry.pushAck user)).matchAgent.state ≠ .idle := by
      simp [MatchManager.put, joins.1]
    have put : Turn.putting manager (entry.pushAck user) =
        ⟨manager.put (entry.pushAck user), 0, []⟩ := rfl
    rw [put] at published
    exact restart_picks env clean depth _ targetMatch callback busy targets waiting foundKeyed
      published

end Picks

section Own

variable {manager after : MatchManager Counter} {event : Event Counter}
variable {actions : List (Output Counter)}

def MatchManager.RecordsOwn (manager : MatchManager Counter) : Prop :=
  ∀ matchId, manager.matchAgent.matchId = some matchId → ∀ entry,
    manager.matchMap.lookup matchId = some entry →
      entry.recorded manager.matchAgent.id = some manager.matchAgent.counter

structure SearchAgrees (manager : MatchManager Counter) (targetMatch : List String)
    (counter : Counter) (actions : List (Output Counter)) : Prop where
  joined : ∀ msg, .publish (.claim msg) ∈ actions → ∀ entry,
    manager.matchMap.lookup msg.matchId = some entry →
      ∀ known, entry.recorded manager.matchAgent.id = some known → known = counter
  served : (∀ key held, manager.matchMap.lookup key = some held →
      joinable targetMatch manager.matchAgent.id held = false) → ∀ entry,
    manager.matchMap.lookup (getMatchID manager.matchAgent.id (advertised targetMatch)) =
      some entry → entry.recorded manager.matchAgent.id = some counter

section Search

variable {targetMatch : List String} {counter : Counter} {callback : Callback}

theorem SearchAgrees.recorded (agrees : SearchAgrees manager targetMatch counter actions)
    (closed : ∀ key held, manager.matchMap.lookup key = some held →
      joinable targetMatch manager.matchAgent.id held = false) (seen : Int) :
    (manager.matchMap.advertised (manager.advert targetMatch counter) seen).recorded
      manager.matchAgent.id = some counter := by
  unfold MatchMap.advertised
  split
  next entry held => exact agrees.served closed entry held
  next => exact (recorded_new _ (manager.advert targetMatch counter) seen).trans (if_pos rfl)

variable (search : Search manager targetMatch counter callback actions after)
variable (agrees : SearchAgrees manager targetMatch counter actions)

include search agrees

theorem Search.records_own : after.RecordsOwn := by
  cases search with
  | join entry now held open_ =>
    have known := agrees.joined _ (List.mem_singleton_self _) entry held
    rintro matchId current found isFound
    obtain rfl : entry.matchId = matchId := Option.some.inj current
    simp only [MatchManager.joining] at isFound
    by_cases claims : entry.claimsSeen.any (fun claim => claim.1 = manager.matchAgent.id)
    · rw [if_pos claims] at isFound
      obtain rfl := Option.some.inj (held.symm.trans isFound)
      obtain ⟨claim, member, own⟩ := List.any_eq_true.mp claims
      obtain ⟨counter', recorded⟩ := exists_recorded entry manager.matchAgent.id
        (.inr (List.mem_map.mpr ⟨claim, member, of_decide_eq_true own⟩))
      exact recorded.trans (congrArg some (known counter' recorded))
    · rw [if_neg claims, AList.lookup_insert] at isFound
      obtain rfl := Option.some.inj isFound
      show (entry.pushClaim manager.matchAgent.id counter).recorded manager.matchAgent.id = _
      rw [recorded_pushClaim, if_pos rfl]
      cases recorded : entry.recorded manager.matchAgent.id with
      | none => rfl
      | some counter' => exact congrArg some (known counter' recorded)
  | serve entry now seen closed own unclaimed =>
    rintro matchId current found isFound
    obtain rfl : entry.matchId = matchId := Option.some.inj current
    simp only [MatchManager.serving, MatchManager.put, AList.lookup_insert] at isFound
    obtain rfl := Option.some.inj isFound
    exact own ▸ agrees.recorded closed seen
  | fill => exact fun matchId current => by cases current

theorem Search.result_own {agent : MatchAgent Counter} {result : MatchState Counter}
    (completes : Completes actions agent result) :
    result.recorded agent.id = some agent.counter := by
  obtain ⟨callback', called⟩ := completes
  cases search with
  | join | serve => simp at called
  | fill entry now seen user claimCounter rest closed own claims =>
    obtain ⟨rfl, -, rfl⟩ := callback_mem_fill.mp called
    rw [recorded_acknowledged]
    exact own ▸ agrees.recorded closed seen

end Search

theorem MatchManager.RecordsOwn.drop (records : manager.RecordsOwn) (matchId : String) :
    (manager.drop matchId).RecordsOwn :=
  fun key current entry found => records key current entry (lookup_of_drop found)

theorem MatchManager.RecordsOwn.of_clear (manager : MatchManager Counter) :
    manager.clear.RecordsOwn :=
  fun _ current => by cases current

variable (effect : Effect manager event actions after) (inv : manager.Inv)
variable (records : manager.RecordsOwn)
variable (searches : ∀ found targetMatch counter,
  manager.Begins event found targetMatch counter → SearchAgrees found targetMatch counter actions)

include effect inv records searches

theorem Effect.records_own
    (created : ∀ msg, event = .receive (.advertise msg) →
      manager.matchAgent.matchId = some (getMatchID msg.advertiser msg.match_) →
        manager.matchMap.lookup (getMatchID msg.advertiser msg.match_) = none →
          msg.advertiser = manager.matchAgent.id ∧ msg.counter = manager.matchAgent.counter) :
    after.RecordsOwn := by
  cases effect with
  | quiet | listening => exact records
  | expired time now map fresh =>
    intro matchId current entry found
    rw [fresh, Option.filter_eq_some_iff] at found
    exact records matchId current entry found.1
  | advertised msg seen =>
    intro matchId current entry found
    simp only [MatchManager.put, AList.lookup_insert_of] at found
    split at found
    next same =>
      obtain rfl := Option.some.inj found
      rw [advertised_matchId inv.keyed] at same
      subst same
      show (manager.matchMap.advertised msg seen).recorded manager.matchAgent.id = _
      unfold MatchMap.advertised
      split
      next held isHeld => exact records _ current held isHeld
      next absent =>
        obtain ⟨own, counted⟩ := created msg rfl current absent
        exact (recorded_new _ msg seen).trans (by rw [if_pos own, counted]; rfl)
    next => exact records matchId current entry found
  | withdrawn matchId => exact records.drop matchId
  | claimed entry user counter held first elsewhere =>
    intro matchId current found isFound
    simp only [MatchManager.put, pushClaim_matchId, AList.lookup_insert_of] at isFound
    split at isFound
    next same =>
      obtain rfl := Option.some.inj isFound
      show (entry.pushClaim user counter).recorded manager.matchAgent.id = _
      rw [recorded_pushClaim, records matchId current entry (same ▸ held)]
      rfl
    next => exact records matchId current found isFound
  | hosted | joined => exact .of_clear _
  | filled entry user held elsewhere => exact records.drop entry.matchId
  | passedOver entry user targetMatch callback actions after held joins other targets waiting search =>
    exact (search.records_own (searches _ _ _ (.passedOver entry user targetMatch held joins other
      targets))).drop entry.matchId
  | started targetMatch counter callback actions after idle search =>
    exact search.records_own (searches _ _ _ (.started targetMatch counter callback idle))
  | restarted time targetMatch callback actions after due targets waiting search =>
    exact search.records_own (searches _ _ _ (.restarted time targetMatch due targets))
  | unadvertised matchId callback throws serves waiting =>
    cases throws
    · exact .of_clear _
    · exact records.drop matchId
  | stopped callback throws joining waiting =>
    cases throws
    · exact .of_clear _
    · exact records

omit inv in
theorem Effect.result_own {agent : MatchAgent Counter} {result : MatchState Counter}
    (completes : Completes actions agent result) :
    result.recorded agent.id = some agent.counter := by
  have completes' := completes
  obtain ⟨callback', called⟩ := completes
  cases effect with
  | quiet | listening | expired | advertised | withdrawn | claimed | filled | unadvertised | stopped =>
    simp at called
  | hosted entry user counter callback held first serves waiting =>
    obtain ⟨rfl, -, rfl⟩ := callback_mem_hosted.mp called
    rw [recorded_pushAck, recorded_pushClaim, records _ serves.2 entry held]
    rfl
  | joined entry callback held joins waiting =>
    obtain ⟨rfl, -, rfl⟩ := callback_mem_joined.mp called
    rw [recorded_pushAck, records _ joins.2 entry held]
  | passedOver entry user targetMatch callback actions after held joins other targets waiting search =>
    exact search.result_own (searches _ _ _ (.passedOver entry user targetMatch held joins other
      targets)) completes'
  | started targetMatch counter callback actions after idle search =>
    exact search.result_own (searches _ _ _ (.started targetMatch counter callback idle)) completes'
  | restarted time targetMatch callback actions after due targets waiting search =>
    exact search.result_own (searches _ _ _ (.restarted time targetMatch due targets)) completes'

end Own

section Results

variable {manager after : MatchManager Counter} {event : Event Counter}
variable {actions : List (Output Counter)} {P : String → MatchState Counter → Prop}
variable {adverts : MatchAdvertiseMessage Counter → Prop}
variable {claims : MatchClaimMessage Counter → Prop} (closed : Closed P adverts claims)
variable (acked : ∀ key entry user, P key entry → P key (entry.pushAck user))
variable (keyed : manager.matchMap.Keyed)
variable (published : ∀ msg, .publish (.advertise msg) ∈ actions → adverts msg)
variable (all : manager.matchMap.All P)
variable {agent : MatchAgent Counter} {result : MatchState Counter}
variable (completes : Completes actions agent result)

include closed acked keyed published all completes

theorem Search.result_all {targetMatch : List String} {counter : Counter} {callback : Callback}
    (search : Search manager targetMatch counter callback actions after) :
    P result.matchId result := by
  obtain ⟨callback', called⟩ := completes
  cases search with
  | join | serve => simp at called
  | fill entry now seen user claimCounter rest none own isClaimed =>
    obtain ⟨-, -, rfl⟩ := callback_mem_fill.mp called
    have holds := closed.advertised all (published _ (List.mem_cons_self ..)) seen
    rw [← advertised_matchId keyed _ seen, ← own] at holds
    rw [acknowledged_matchId]
    unfold MatchState.acknowledged
    split
    next => exact holds
    next => exact acked _ entry user holds

theorem Effect.result_all (effect : Effect manager event actions after)
    (claimReceived : ∀ msg, event = .receive (.claim msg) → claims msg) :
    P result.matchId result := by
  have completes' := completes
  obtain ⟨callback', called⟩ := completes
  cases effect with
  | quiet | listening | expired | advertised | withdrawn | claimed | filled | unadvertised | stopped =>
    simp at called
  | hosted entry user counter callback held first serves waiting =>
    obtain ⟨-, -, rfl⟩ := callback_mem_hosted.mp called
    have fresh : ∀ claim ∈ entry.claimsSeen, claim.1 ≠ user := by simp [first]
    exact acked _ (entry.pushClaim user counter) user
      (closed.claimed entry user counter (claimReceived _ rfl) fresh (all _ entry held))
  | joined entry callback held joins waiting =>
    obtain ⟨-, -, rfl⟩ := callback_mem_joined.mp called
    exact acked _ entry _ (all _ entry held)
  | passedOver entry user targetMatch callback actions after held joins other targets waiting search =>
    have keyed' : (manager.put (entry.pushAck user)).matchMap.Keyed := keyed.insert rfl
    have all' : (manager.put (entry.pushAck user)).matchMap.All P :=
      all.insert (acked _ entry user (all _ entry held))
    exact search.result_all closed acked keyed' published all' completes'
  | started targetMatch counter callback actions after idle search =>
    exact search.result_all closed acked keyed published all completes'
  | restarted time targetMatch callback actions after due targets waiting search =>
    exact search.result_all closed acked keyed published all completes'

end Results

section Others

variable {id : PublicKey} {moments : List (Moment Counter)} {moment : Moment Counter}

def Latest (id : PublicKey) (moments : List (Moment Counter)) (matchId : String)
    (entry : MatchState Counter) : Prop :=
  ∀ user, user ≠ id → ∀ counter, entry.recorded user = some counter →
    (countersHeard matchId user moments).getLast? = some counter

theorem countersHeard_snoc (matchId : String) (user : PublicKey) :
    (countersHeard matchId user (moments ++ [moment])).getLast? =
      (moment.input.event.counter matchId user).or
        (countersHeard matchId user moments).getLast? := by
  simp only [countersHeard, List.filterMap_append, List.getLast?_append]
  cases heard : moment.input.event.counter matchId user <;> simp [heard]

theorem Latest.kept {matchId : String} {entry : MatchState Counter}
    (latest : Latest id moments matchId entry)
    (agrees : ∀ user counter, moment.input.event.counter matchId user = some counter → user ≠ id →
      ∀ known, entry.recorded user = some known → known = counter) :
    Latest id (moments ++ [moment]) matchId entry := by
  intro user other known recorded
  rw [countersHeard_snoc]
  cases heard : moment.input.event.counter matchId user with
  | none => exact latest user other known recorded
  | some counter => exact congrArg some (agrees user counter heard other known recorded).symm

theorem closed_latest :
    Closed (Latest id (moments ++ [moment]))
      (fun msg => msg.advertiser = id ∨ moment.input.event = .receive (.advertise msg))
      fun msg => msg.user = id ∨ moment.input.event = .receive (.claim msg) where
  fresh msg seen advert user other counter recorded := by
    rw [recorded_new] at recorded
    split at recorded
    next own =>
      obtain rfl := Option.some.inj recorded
      rcases advert with self | received
      · exact absurd (own.symm.trans self) other
      · rw [countersHeard_snoc, received]
        simp [Event.counter, own]
    next => cases recorded
  seen key entry lastSeen latest := latest
  claimed entry claimant counter claim first latest user other known recorded := by
    rw [recorded_pushClaim] at recorded
    cases before : entry.recorded user with
    | some counter' =>
      rw [before] at recorded
      exact Option.some.inj recorded ▸ latest user other counter' before
    | none =>
      rw [before, Option.none_or] at recorded
      split at recorded
      next own =>
        obtain rfl := Option.some.inj recorded
        rcases claim with self | received
        · exact absurd (own.symm.trans self) other
        · rw [countersHeard_snoc, received]
          simp [Event.counter, own]
      next => cases recorded

end Others

namespace CountersAgree

variable {moment : Moment Counter} (agree : CountersAgree moment)

include agree

theorem search (inv : moment.before.Inv)
    (answer : (moment.after, moment.outputs) = moment.before.react moment.input)
    {found : MatchManager Counter} {targetMatch : List String} {counter : Counter}
    (begins : moment.before.Begins moment.input.event found targetMatch counter) :
    SearchAgrees found targetMatch counter (visible moment.outputs) := by
  have own := congrArg MatchAgent.id begins.same_agent
  refine ⟨fun msg published entry held known recorded => ?_, fun closed entry held => ?_⟩
  · have outputs : moment.outputs = (moment.before.react moment.input).2 := congrArg Prod.snd answer
    rw [mem_visible_publish, outputs] at published
    obtain ⟨picked, isPicked, same⟩ := begins.picks moment.input.env moment.input.pristine inv
      published
    have isHeld := found_held moment.input.env targetMatch ⟨found, 0, []⟩ (begins.keyed inv.keyed)
      isPicked
    rw [same] at isHeld
    obtain rfl := Option.some.inj (isHeld.symm.trans held)
    exact agree.joined found targetMatch counter begins picked isPicked known (own ▸ recorded)
  · have none : found.pick moment.input.env targetMatch = none := by
      refine List.find?_eq_none.mpr fun held member joins => ?_
      obtain ⟨key, isHeld⟩ := (mem_shuffle moment.input.env ⟨found, 0, []⟩ held).mp member
      exact absurd (closed key held isHeld) (by simp [joins])
    rw [own] at held ⊢
    exact agree.served found targetMatch counter begins none entry held

theorem step (inv : moment.before.Inv) {id : PublicKey}
    (own : moment.before.matchAgent.id = id)
    (answer : (moment.after, moment.outputs) = moment.before.react moment.input)
    {moments : List (Moment Counter)} (records : moment.before.RecordsOwn)
    (latest : moment.before.matchMap.All (Latest id moments)) :
    (moment.after.RecordsOwn ∧ moment.after.matchMap.All (Latest id (moments ++ [moment]))) ∧
      ∀ agent result, Completes moment.outputs agent result →
        result.recorded agent.id = some agent.counter ∧
          Latest id (moments ++ [moment]) result.matchId result := by
  subst own
  have effect := moment.before.react_effect inv moment.input
  rw [← answer] at effect
  have searches (found : MatchManager Counter) (targetMatch : List String) (counter : Counter)
      (begins : moment.before.Begins moment.input.event found targetMatch counter) :=
    agree.search inv answer begins
  have adverts (msg : MatchAdvertiseMessage Counter)
      (published : .publish (.advertise msg) ∈ visible moment.outputs) :
      msg.advertiser = moment.before.matchAgent.id ∨
        moment.input.event = .receive (.advertise msg) :=
    .inl (effect.advertises published)
  have kept : moment.before.matchMap.All
      (Latest moment.before.matchAgent.id (moments ++ [moment])) :=
    fun matchId entry held => (latest matchId entry held).kept fun user counter heard other =>
      agree.received matchId user counter heard other entry held
  refine ⟨⟨effect.records_own inv records searches agree.created, ?_⟩,
    fun agent result completes => ?_⟩
  · exact effect.all closed_latest inv.keyed adverts
      (fun msg published => .inl (effect.claims inv published).2) (fun _ => .inr) (fun _ => .inr)
      kept
  · have ends := completes_visible.mpr completes
    exact ⟨effect.result_own records searches ends,
      effect.result_all closed_latest (fun _ _ _ latest => latest) inv.keyed adverts kept ends
        fun _ => .inr⟩

end CountersAgree

namespace MatchManager

variable [IntCast Counter] (id : PublicKey)

theorem run_records (inputs : List (Input Counter))
    (agree : ∀ moment ∈ react.trace (MatchManager.new id) inputs, CountersAgree moment) :
    let manager := (react.run (MatchManager.new id) inputs).1
    manager.RecordsOwn ∧
      manager.matchMap.All (Latest id (react.trace (MatchManager.new id) inputs)) := by
  refine (react.trace_steps (fun manager moments => (manager.Inv ∧ manager.matchAgent.id = id) ∧
    manager.RecordsOwn ∧ manager.matchMap.All (Latest id moments)) _ inputs
    ⟨⟨new_inv id, rfl⟩, .of_clear (MatchManager.new id), AList.All.empty⟩
    fun moment member answer moments kept => ?_).2
  obtain ⟨⟨inv, own⟩, records, latest⟩ := kept
  have effect := moment.before.react_effect inv moment.input
  rw [← answer] at effect
  exact ⟨⟨effect.inv inv, effect.id_kept.trans own⟩,
    ((agree moment member).step inv own answer records latest).1⟩

theorem run_counters (inputs : List (Input Counter)) {earlier later : List (Moment Counter)}
    {last : Moment Counter}
    (split : react.trace (MatchManager.new id) inputs = earlier ++ last :: later)
    (agree : ∀ moment ∈ earlier ++ [last], CountersAgree moment) {agent : MatchAgent Counter}
    {result : MatchState Counter} (completes : Completes last.outputs agent result) :
    CurrentCounters (earlier ++ [last]) agent result := by
  obtain ⟨before, life, targetMatch, -, -, -, for_, -⟩ := run_completed id inputs split completes
  obtain ⟨past, -, -, rfl, start, answer⟩ := react.trace_split split
  obtain ⟨records, latest⟩ := run_records id past fun moment member =>
    agree moment (List.mem_append_left _ member)
  have inv : last.before.Inv := start ▸ run_inv id past
  have own : last.before.matchAgent.id = id := start ▸ run_id id past
  rw [← start] at records latest
  obtain ⟨recorded, current⟩ :=
    ((agree last (by simp)).step inv own answer records latest).2 agent result completes
  refine ⟨getCounter_of_recorded recorded, fun user other paired => ?_⟩
  obtain ⟨counter, known⟩ := exists_recorded result user <| paired.imp_right fun first =>
    List.mem_of_head? (List.head?_map.trans first)
  rw [getCounter_of_recorded known]
  exact current user (fun same => other (same.trans for_.own.symm)) counter known

end MatchManager

section Network

variable {Peer : Type} [DecidableEq Peer]

abbrev momentsOf (history : List (PeerRecord Peer Counter)) (peer : Peer) : List (Moment Counter) :=
  Network.recordsOf PeerInput.toInput history peer

variable [IntCast Counter] {id : Peer → PublicKey} {net : Peers Peer Counter}
variable {enabled : Network.Enabled Peer (MatchManager Counter) (PeerInput Counter)
  (Output Counter)}

/-- Whatever the peers do, a result of one of them has the counter that its search was started with,
and the last counter heard from whoever it is paired with, if no step up to then has brought a
counter that differs from a recorded one. -/
theorem counters_current (reached : Reaches id enabled net) (peer : Peer)
    {earlier later : List (Moment Counter)} {last : Moment Counter}
    (split : momentsOf net.history peer = earlier ++ last :: later)
    (agree : ∀ moment ∈ earlier ++ [last], CountersAgree moment) {agent : MatchAgent Counter}
    {result : MatchState Counter} (completes : Completes last.outputs agent result) :
    agent.id = id peer ∧ CurrentCounters (earlier ++ [last]) agent result ∧
      ∃ before life targetMatch, earlier = before ++ life ∧
        SearchLife targetMatch agent.counter (life ++ [last]) := by
  obtain ⟨inputs, run, -⟩ :=
    reached.records_of PeerInput.toInput MatchManager.react (fun _ _ => rfl) peer
  rw [momentsOf, run] at split
  obtain ⟨before, life, targetMatch, whole, search, -, for_, -⟩ :=
    MatchManager.run_completed (id peer) inputs split completes
  exact ⟨for_.own, MatchManager.run_counters (id peer) inputs split agree completes, before, life,
    targetMatch, whole, search⟩

end Network

section Small

theorem counters_current_host :
    let moments := momentsOf (smallStart.play MatchManager.peer (joinSteps (1 : Int))).history 0
    let matchId := getMatchID (smallId 0) (.string "chess")
    CurrentCounters moments
      ⟨smallId 0, .servingWaitingClaims, 1, 0, some ["chess"], some matchId, some 0⟩
      ⟨smallId 0, 1, .string "chess", matchId, 0, [(smallId 1, 1)], [smallId 1]⟩ := by
  intro moments matchId
  have split : moments = [moments[0]] ++ moments[1] :: [] := rfl
  have advertises : CountersAgree moments[0] := by
    have picks : (MatchManager.new (smallId 0) : MatchManager Int).pick (.still 0) ["chess"] =
        none := by decide +kernel
    refine ⟨?received, ?created, ?joined, ?served⟩
    case received => exact fun _ _ _ heard => by cases heard
    case created => exact fun _ received => by cases received
    case joined =>
      intro found targetMatch counter begins entry isPicked
      cases begins
      cases picks.symm.trans isPicked
    case served =>
      intro found targetMatch counter begins _ entry held
      cases begins
      cases held
  have claimed : CountersAgree moments[1] := by
    refine ⟨?received, ?created, ?joined, ?served⟩
    case received =>
      intro matchId' user counter heard other entry held known recorded
      change (if matchId = matchId' ∧ smallId 1 = user then some (1 : Int) else none) = some counter
        at heard
      split at heard
      next same =>
        obtain ⟨rfl, rfl⟩ := same
        have unheard : (moments[1].before.matchMap.lookup matchId).map
            (MatchState.recorded · (smallId 1)) = some none := by decide +kernel
        rw [held, Option.map_some, recorded] at unheard
        cases unheard
      next => cases heard
    case created => exact fun _ received => by cases received
    case joined => exact fun _ _ _ begins => by cases begins
    case served => exact fun _ _ _ begins => by cases begins
  refine (counters_current (Network.reachable_play _ .start joinSteps_lossy) 0 split ?_ ⟨0, ?_⟩).2.1
  · simpa using ⟨advertises, claimed⟩
  · decide +kernel

theorem counter_outdated :
    Network.Playable MatchManager.peer Lossy smallStart outdatedSteps ∧
      ∃ earlier last agent result,
        momentsOf (smallStart.play MatchManager.peer outdatedSteps).history 1 = earlier ++ [last] ∧
          Completes last.outputs agent result ∧ agent.counter = 2 ∧ result.getCounter agent.id = 1 ∧
            ¬CurrentCounters (earlier ++ [last]) agent result := by
  let matchId := getMatchID (smallId 0) (.string "chess")
  let moments := momentsOf (smallStart.play MatchManager.peer outdatedSteps).history 1
  let agent : MatchAgent Int :=
    ⟨smallId 1, .joiningWaitingAck, 2, 4, some ["chess"], some matchId, some 1⟩
  let result : MatchState Int :=
    ⟨smallId 0, 1, .string "chess", matchId, 1, [(smallId 1, 1)], [smallId 1]⟩
  have outdated : result.getCounter agent.id = 1 := by decide
  refine ⟨⟨trivial, ⟨(0, 0), 0, rfl, by decide +kernel⟩, trivial, trivial, trivial,
    ⟨(4, 0), 1, rfl, by decide +kernel⟩, ⟨(5, 0), 0, rfl, by decide +kernel⟩, trivial⟩,
    moments.take 4, moments[4], agent, result, rfl, ⟨1, by decide +kernel⟩, rfl, outdated,
    fun current => ?_⟩
  exact absurd (outdated.symm.trans current.own) (by decide)

end Small

end RoundTable.Matcher
