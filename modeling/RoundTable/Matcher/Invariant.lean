import RoundTable.Shared.Reactive
import RoundTable.Matcher.Handling

set_option autoImplicit false

namespace RoundTable.Matcher

open Script

variable {Counter : Type}

/-- The entries that a property holds of are closed under what a search or an event does to one. -/
structure Closed (P : String → MatchState Counter → Prop)
    (adverts : MatchAdvertiseMessage Counter → Prop) (claims : MatchClaimMessage Counter → Prop) :
    Prop where
  fresh : ∀ msg seen, adverts msg →
    P (getMatchID msg.advertiser msg.match_)
      (MatchState.new msg.advertiser msg.counter msg.match_ seen)
  seen : ∀ key entry lastSeen, P key entry → P key { entry with lastSeen }
  claimed : ∀ entry user counter, claims ⟨entry.matchId, user, counter⟩ →
    (∀ claim ∈ entry.claimsSeen, claim.1 ≠ user) → P entry.matchId entry →
      P entry.matchId (entry.pushClaim user counter)

namespace Closed

variable {P : String → MatchState Counter → Prop}
variable {adverts : MatchAdvertiseMessage Counter → Prop}
variable {claims : MatchClaimMessage Counter → Prop}

theorem except (closed : Closed P adverts claims) (skip : String) :
    Closed (fun key entry => key ≠ skip → P key entry) adverts claims where
  fresh msg seen advert _ := closed.fresh msg seen advert
  seen key entry lastSeen holds other := closed.seen key entry lastSeen (holds other)
  claimed entry user counter claim first holds other :=
    closed.claimed entry user counter claim first (holds other)

theorem advertised (closed : Closed P adverts claims) {map : MatchMap Counter} (all : map.All P)
    {msg : MatchAdvertiseMessage Counter} (advert : adverts msg) (seen : Int) :
    P (getMatchID msg.advertiser msg.match_) (map.advertised msg seen) := by
  unfold MatchMap.advertised
  split
  next entry held => exact closed.seen _ entry seen (all _ entry held)
  next => exact closed.fresh msg seen advert

end Closed

theorem Search.all {manager after : MatchManager Counter} {targetMatch : List String}
    {counter : Counter} {callback : Callback} {actions : List (Output Counter)}
    (search : Search manager targetMatch counter callback actions after)
    {P : String → MatchState Counter → Prop} {adverts : MatchAdvertiseMessage Counter → Prop}
    {claims : MatchClaimMessage Counter → Prop} (closed : Closed P adverts claims)
    (keyed : manager.matchMap.Keyed)
    (published : ∀ msg, .publish (.advertise msg) ∈ actions → adverts msg)
    (claimed : ∀ msg, .publish (.claim msg) ∈ actions → claims msg)
    (all : manager.matchMap.All P) : after.matchMap.All P := by
  cases search with
  | join entry now held open_ =>
    by_cases seen : entry.claimsSeen.any (fun claim => claim.1 = manager.matchAgent.id)
    · simpa only [MatchManager.joining, seen, if_true] using all
    · simp only [MatchManager.joining, seen, Bool.false_eq_true, if_false]
      refine all.insert (closed.claimed entry _ counter (claimed _ (by simp)) ?_ (all _ _ held))
      intro claim member same
      exact seen (List.any_eq_true.mpr ⟨claim, member, by simpa using same⟩)
  | serve entry now seen none own unclaimed =>
    have holds := closed.advertised all (published _ (List.mem_cons_self ..)) seen
    rw [← advertised_matchId keyed _ seen, ← own] at holds
    exact all.insert holds
  | fill entry now seen user claimCounter rest none own claims' =>
    have holds := closed.advertised all (published _ (List.mem_cons_self ..)) seen
    rw [← advertised_matchId keyed _ seen, ← own] at holds
    exact (all.insert holds).erase _

theorem Effect.all {manager after : MatchManager Counter} {event : Event Counter}
    {actions : List (Output Counter)} (effect : Effect manager event actions after)
    {P : String → MatchState Counter → Prop} {adverts : MatchAdvertiseMessage Counter → Prop}
    {claims : MatchClaimMessage Counter → Prop} (closed : Closed P adverts claims)
    (keyed : manager.matchMap.Keyed)
    (published : ∀ msg, .publish (.advertise msg) ∈ actions → adverts msg)
    (claimed : ∀ msg, .publish (.claim msg) ∈ actions → claims msg)
    (advertReceived : ∀ msg, event = .receive (.advertise msg) → adverts msg)
    (claimReceived : ∀ msg, event = .receive (.claim msg) → claims msg)
    (all : manager.matchMap.All P) : after.matchMap.All P := by
  cases effect with
  | quiet event quiet => exact all
  | listening listener => exact all
  | expired time now map fresh =>
    intro key entry found
    rw [fresh, Option.filter_eq_some_iff] at found
    exact all key entry found.1
  | advertised msg seen =>
    have holds := closed.advertised all (advertReceived msg rfl) seen
    rw [← advertised_matchId keyed msg seen] at holds
    exact all.insert holds
  | withdrawn matchId => exact all.erase matchId
  | claimed entry user counter held first elsewhere =>
    exact all.insert
      (closed.claimed entry user counter (claimReceived _ rfl) first (all _ _ held))
  | hosted entry user counter callback held first serves waiting => exact all.erase _
  | filled entry user held elsewhere => exact all.erase _
  | joined entry callback held joins waiting => exact all.erase _
  | passedOver entry user targetMatch callback actions after held joins other targets waiting search =>
    -- the acknowledged entry is in the map while the search runs, and gone after it
    have skipped : manager.matchMap.All fun key value => key ≠ entry.matchId → P key value :=
      all.imp fun _ _ holds _ => holds
    refine AList.All.erase_except (search.all (closed.except entry.matchId) ?_ published claimed ?_)
    · exact keyed.insert rfl
    · exact skipped.insert fun other => absurd rfl other
  | started targetMatch counter callback actions after idle search =>
    exact search.all closed keyed published claimed all
  | restarted time targetMatch callback actions after due targets waiting search =>
    exact search.all closed keyed published claimed all
  | unadvertised matchId callback throws serves waiting =>
    cases throws <;> exact all.erase _
  | stopped callback throws joining waiting =>
    cases throws <;> exact all

theorem closed_sound :
    Closed (MatchState.Sound : String → MatchState Counter → Prop) (fun _ => True) fun _ => True where
  fresh msg seen _ := ⟨rfl, rfl, List.nodup_nil⟩
  seen key entry lastSeen sound := ⟨sound.keyed, sound.identified, sound.claimants⟩
  claimed entry user counter _ first sound := by
    refine ⟨sound.keyed, sound.identified, ?_⟩
    simp only [MatchState.pushClaim, List.map_append, List.map_cons, List.map_nil]
    refine sound.claimants.append (List.nodup_singleton _) ?_
    simpa [List.disjoint_singleton] using fun counter member => first (user, counter) member rfl

theorem closed_unacked :
    Closed (fun _ (entry : MatchState Counter) => entry.acksSeen = []) (fun _ => True)
      fun _ => True where
  fresh _ _ _ := rfl
  seen _ _ _ unacked := unacked
  claimed _ _ _ _ _ unacked := unacked

theorem Search.consistent {manager after : MatchManager Counter} {targetMatch : List String}
    {counter : Counter} {callback : Callback} {actions : List (Output Counter)}
    (search : Search manager targetMatch counter callback actions after)
    (sound : manager.matchMap.All MatchState.Sound) : after.matchAgent.Consistent := by
  cases search with
  | join entry now held open_ =>
    simp only [joinable, Bool.and_eq_true, List.any_eq_true, decide_eq_true_eq] at open_
    obtain ⟨⟨⟨target, member, offered⟩, other⟩, -⟩ := open_
    have named := (sound _ _ held).identified
    rw [offered] at named
    exact ⟨targetMatch, entry.advertiser, target, callback, rfl, member, other,
      congrArg some named.symm, rfl⟩
  | serve entry now seen none own unclaimed =>
    have keyed : manager.matchMap.Keyed := sound.imp fun _ _ holds => holds.keyed
    refine ⟨targetMatch, callback, rfl, ?_, rfl⟩
    simp only [MatchManager.serving, own, advertised_matchId keyed]
    rfl
  | fill entry now seen user claimCounter rest none own claims => exact ⟨rfl, rfl, rfl⟩

theorem Search.unclaimed {manager after : MatchManager Counter} {targetMatch : List String}
    {counter : Counter} {callback : Callback} {actions : List (Output Counter)}
    (search : Search manager targetMatch counter callback actions after)
    (serving : after.matchAgent.state = .servingWaitingClaims) :
    after.matchMap.All fun key entry =>
      after.matchAgent.matchId = some key → entry.claimsSeen = [] := by
  cases search with
  | join entry now held open_ => cases serving
  | serve entry now seen none own unclaimed =>
    intro key held found current
    obtain rfl : entry.matchId = key := by simpa [MatchManager.serving] using current
    simp only [MatchManager.serving, MatchManager.put, AList.lookup_insert] at found
    exact Option.some.inj found ▸ unclaimed
  | fill entry now seen user claimCounter rest none own claims => cases serving

section Effects

variable {manager after : MatchManager Counter} {event : Event Counter}
variable {actions : List (Output Counter)} (effect : Effect manager event actions after)

include effect

theorem Effect.consistent (inv : manager.Inv) : after.matchAgent.Consistent := by
  cases effect with
  | quiet | listening | expired | advertised | withdrawn | claimed | filled => exact inv.consistent
  | hosted | joined => exact ⟨rfl, rfl, rfl⟩
  | passedOver entry user targetMatch callback actions after held joins other targets waiting search =>
    apply search.consistent
    have sound := inv.sound _ _ held
    exact inv.sound.insert ⟨rfl, sound.identified, sound.claimants⟩
  | started targetMatch counter callback actions after idle search =>
    exact search.consistent inv.sound
  | restarted time targetMatch callback actions after due targets waiting search =>
    exact search.consistent inv.sound
  | unadvertised matchId callback throws serves waiting =>
    cases throws
    · exact ⟨rfl, rfl, rfl⟩
    · exact inv.consistent
  | stopped callback throws joining waiting =>
    cases throws
    · exact ⟨rfl, rfl, rfl⟩
    · exact inv.consistent

theorem Effect.unclaimed (inv : manager.Inv)
    (serving : after.matchAgent.state = .servingWaitingClaims) :
    after.matchMap.All fun key entry =>
      after.matchAgent.matchId = some key → entry.claimsSeen = [] := by
  cases effect with
  | quiet | listening => exact inv.unclaimed serving
  | expired time now map fresh =>
    intro key entry found
    rw [fresh, Option.filter_eq_some_iff] at found
    exact inv.unclaimed serving key entry found.1
  | advertised msg seen =>
    refine (inv.unclaimed serving).insert fun current => ?_
    have silent := inv.advertised_unanswered msg seen
    simpa [MatchManager.Answers, show manager.matchAgent.state = _ from serving,
      show manager.matchAgent.matchId = _ from current] using silent
  | withdrawn matchId => exact (inv.unclaimed serving).erase _
  | claimed entry user counter held first elsewhere =>
    exact (inv.unclaimed serving).insert fun current => absurd ⟨serving, current⟩ elsewhere
  | hosted | joined => cases serving
  | filled entry user held elsewhere => exact (inv.unclaimed serving).erase _
  | passedOver entry user targetMatch callback actions after held joins other targets waiting search =>
    exact (search.unclaimed serving).erase _
  | started targetMatch counter callback actions after idle search => exact search.unclaimed serving
  | restarted time targetMatch callback actions after due targets waiting search =>
    exact search.unclaimed serving
  | unadvertised matchId callback throws serves waiting =>
    cases throws
    · cases serving
    · exact (inv.unclaimed serving).erase _
  | stopped callback throws joining waiting =>
    cases throws
    · cases serving
    · exact absurd (joining.symm.trans serving) (by decide)

theorem Effect.inv (inv : manager.Inv) : after.Inv where
  sound := effect.all closed_sound inv.keyed (fun _ _ => trivial) (fun _ _ => trivial)
    (fun _ _ => trivial) (fun _ _ => trivial) inv.sound
  unacked := effect.all closed_unacked inv.keyed (fun _ _ => trivial) (fun _ _ => trivial)
    (fun _ _ => trivial) (fun _ _ => trivial) inv.unacked
  consistent := effect.consistent inv
  unclaimed := effect.unclaimed inv

theorem Effect.id_kept : after.matchAgent.id = manager.matchAgent.id := by
  cases effect with
  | passedOver entry user targetMatch callback actions after held joins other targets waiting search =>
    cases search <;> rfl
  | started targetMatch counter callback actions after idle search => cases search <;> rfl
  | restarted time targetMatch callback actions after due targets waiting search =>
    cases search <;> rfl
  | unadvertised matchId callback throws | stopped callback throws => cases throws <;> rfl
  | _ => rfl

end Effects

theorem Search.targets {manager after : MatchManager Counter} {targetMatch : List String}
    {counter : Counter} {callback : Callback} {actions : List (Output Counter)}
    (search : Search manager targetMatch counter callback actions after) (held : List String)
    (kept : after.matchAgent.targetMatch = some held) : held = targetMatch := by
  cases search with
  | join | serve => exact (Option.some.inj kept).symm
  | fill => cases kept

def Event.Targeted : Event Counter → Prop
  | .findMatch targetMatch _ _ => targetMatch ≠ []
  | _ => True

theorem Effect.targeted {manager after : MatchManager Counter} {event : Event Counter}
    {actions : List (Output Counter)} (effect : Effect manager event actions after)
    (targeted : event.Targeted)
    (nonempty : ∀ held, manager.matchAgent.targetMatch = some held → held ≠ []) (held : List String)
    (kept : after.matchAgent.targetMatch = some held) : held ≠ [] := by
  cases effect with
  | hosted | joined => cases kept
  | passedOver entry user targetMatch callback actions after _ joins other targets waiting search =>
    rw [search.targets held kept]
    exact nonempty _ targets
  | started targetMatch counter callback actions after idle search =>
    rw [search.targets held kept]
    exact targeted
  | restarted time targetMatch callback actions after due targets waiting search =>
    rw [search.targets held kept]
    exact nonempty _ targets
  | unadvertised matchId callback throws | stopped callback throws =>
    cases throws
    · cases kept
    · exact nonempty held kept
  | _ => exact nonempty held kept

/-- An event and the world it meets, in a realm whose shared objects no script has written to. -/
structure Input (Counter : Type) where
  env : Env Counter
  event : Event Counter
  pristine : env.realm = .pristine

-- A world that stands still at `now`, leaves lists in their order, and throws nothing.
def Env.still (now : Int) : Env Counter where
  realm := .pristine
  clock _ := now
  shuffle _ items := items
  shuffle_perm _ _ := .refl _
  callbackThrows _ := false
  stack := 3
  stack_deep := le_rfl

def Env.throwing (now : Int) : Env Counter :=
  { Env.still now with callbackThrows := fun _ => true }

def Input.still (now : Int) (event : Event Counter) : Input Counter := ⟨.still now, event, rfl⟩

namespace MatchManager

def react : Reactive.Machine (MatchManager Counter) (Input Counter) (Output Counter) :=
  fun manager input => manager.handle input.env input.event

theorem react_effect (manager : MatchManager Counter) (inv : manager.Inv) (input : Input Counter) :
    Effect manager input.event (visible (manager.react input).2) (manager.react input).1 :=
  handle_effect input.env input.pristine manager inv input.event

theorem react_inv (manager : MatchManager Counter) (inv : manager.Inv) (input : Input Counter) :
    (manager.react input).1.Inv :=
  (manager.react_effect inv input).inv inv

variable [IntCast Counter] (id : PublicKey)

theorem new_inv : (MatchManager.new id : MatchManager Counter).Inv where
  sound := AList.All.empty
  unacked := AList.All.empty
  consistent := ⟨rfl, rfl, rfl⟩
  unclaimed serving := by cases serving

theorem run_inv (inputs : List (Input Counter)) :
    (react.run (MatchManager.new id) inputs).1.Inv :=
  react.run_invariant (fun manager _ => manager.Inv) _ inputs (new_inv id)
    fun manager _ input _ inv => manager.react_inv inv input

theorem run_id (inputs : List (Input Counter)) :
    (react.run (MatchManager.new id) inputs).1.matchAgent.id = id :=
  (react.run_invariant (fun manager _ => manager.Inv ∧ manager.matchAgent.id = id) _ inputs
    ⟨new_inv id, rfl⟩ fun manager _ input _ kept =>
      ⟨manager.react_inv kept.1 input, (manager.react_effect kept.1 input).id_kept.trans kept.2⟩).2

theorem run_targeted (inputs : List (Input Counter))
    (targeted : ∀ input ∈ inputs, input.event.Targeted) (held : List String)
    (kept : (react.run (MatchManager.new id) inputs).1.matchAgent.targetMatch = some held) :
    held ≠ [] :=
  (react.run_invariant
    (fun manager _ => manager.Inv ∧
      ∀ held, manager.matchAgent.targetMatch = some held → held ≠ []) _ inputs
    ⟨new_inv id, fun _ impossible => by cases impossible⟩ fun manager _ input member kept =>
      ⟨manager.react_inv kept.1 input,
        (manager.react_effect kept.1 input).targeted (targeted input member) kept.2⟩).2 held kept

theorem run_representation (inputs : List (Input Counter))
    (targeted : ∀ input ∈ inputs, input.event.Targeted) :
    let manager := (react.run (MatchManager.new id) inputs).1
    let agent := manager.matchAgent
    (∀ key entry, manager.matchMap.lookup key = some entry →
      key = entry.matchId ∧ key = getMatchID entry.advertiser entry.match_ ∧
        (entry.claimsSeen.map (·.1)).Nodup ∧ entry.acksSeen = []) ∧
    ((agent.state = .idle ↔ agent.matchId = none) ∧
      (agent.matchId = none ↔ agent.targetMatch = none) ∧
        (agent.targetMatch = none ↔ agent.matchCallback = none)) ∧
    (agent.state = .servingWaitingClaims → ∃ target targets,
      agent.targetMatch = some (target :: targets) ∧
        agent.matchId = some (getMatchID id (.string target))) ∧
    (agent.state = .joiningWaitingAck → ∃ targets advertiser match_,
      agent.targetMatch = some targets ∧ match_ ∈ targets ∧ advertiser ≠ id ∧
        agent.matchId = some (getMatchID advertiser (.string match_))) ∧
    (agent.state = .servingWaitingClaims → ∀ key entry, agent.matchId = some key →
      manager.matchMap.lookup key = some entry → entry.claimsSeen = []) := by
  intro manager agent
  have inv : manager.Inv := run_inv id inputs
  have own : agent.id = id := run_id id inputs
  have nonempty := run_targeted id inputs targeted
  have consistent : agent.Consistent := inv.consistent
  refine ⟨fun key entry held => ?_, ?_, fun serving => ?_, fun joining => ?_,
    fun serving key entry current held => inv.unclaimed serving key entry held current⟩
  · have sound := inv.sound key entry held
    exact ⟨sound.keyed.symm, sound.identified.symm, sound.claimants, inv.unacked key entry held⟩
  · cases state : agent.state with
    | idle =>
      obtain ⟨noId, noTargets, noCallback⟩ : _ ∧ _ ∧ _ := by
        simpa [MatchAgent.Consistent, state] using consistent
      simp [noId, noTargets, noCallback]
    | servingWaitingClaims | joiningWaitingAck =>
      obtain ⟨targetMatch, callback, matchId, targets, waiting, current, -⟩ :=
        consistent.waits (by simp [state])
      simp [targets, waiting, current]
  · simp only [MatchAgent.Consistent, serving] at consistent
    obtain ⟨targets, callback, searching, current, -⟩ := consistent
    cases targets with
    | nil => exact absurd rfl (nonempty [] searching)
    | cons target rest => exact ⟨target, rest, searching, own ▸ current⟩
  · simp only [MatchAgent.Consistent, joining] at consistent
    obtain ⟨targets, advertiser, target, callback, searching, member, other, current, -⟩ :=
      consistent
    exact ⟨targets, advertiser, target, searching, member, own ▸ other, current⟩

theorem run_representation_serving :
    let manager := (react.run (MatchManager.new (.small 1) : MatchManager Int)
      [.still 0 (.findMatch ["chess"] 1 0)]).1
    ∃ target targets, manager.matchAgent.targetMatch = some (target :: targets) ∧
      manager.matchAgent.matchId = some (getMatchID (.small 1) (.string target)) :=
  (run_representation (.small 1) [.still 0 (.findMatch ["chess"] 1 0)]
    (by simp [Input.still, Event.Targeted])).2.2.1 (by decide)

end MatchManager

end RoundTable.Matcher
