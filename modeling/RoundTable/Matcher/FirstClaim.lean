import RoundTable.Shared.WriteOnce
import RoundTable.Matcher.Acks

set_option autoImplicit false

namespace RoundTable.Matcher

open Reactive WriteOnce

variable {Counter : Type}

def Event.claims (matchId : String) : Event Counter → List (PublicKey × Counter)
  | .receive (.claim msg) => if msg.matchId = matchId then [(msg.user, msg.counter)] else []
  | _ => []

def Output.claim (matchId : String) : Output Counter → Option (PublicKey × Counter)
  | .publish (.claim msg) => if msg.matchId = matchId then some (msg.user, msg.counter) else none
  | _ => none

-- The claims for a match that a manager handles: the one it receives, and its own.
def claimsHandled (matchId : String) (event : Event Counter) (outputs : List (Output Counter)) :
    List (PublicKey × Counter) :=
  event.claims matchId ++ outputs.filterMap (Output.claim matchId)

def claimRegister (matchId : String) : Register (Moment Counter) (PublicKey × Counter) where
  creates moment := moment.before.matchMap.lookup matchId = none ∧
    (moment.after.matchMap.lookup matchId).isSome ∧
      claimsHandled matchId moment.input.event moment.outputs = []
  holds moment := (moment.before.matchMap.lookup matchId).isSome
  writes moment := claimsHandled matchId moment.input.event moment.outputs

theorem claims_visible (matchId : String) (event : Event Counter)
    (outputs : List (Output Counter)) :
    claimsHandled matchId event (visible outputs) = claimsHandled matchId event outputs := by
  rw [claimsHandled, visible, List.filterMap_filter]
  congr 2
  funext output
  cases output <;> rfl

inductive Evolves (map : MatchMap Counter) (matchId : String)
    (handled : List (PublicKey × Counter)) (after : MatchState Counter) : Prop where
  | created (absent : map.lookup matchId = none) (unclaimed : after.claimsSeen = [])
      (quiet : handled = [])
  | kept (entry : MatchState Counter) (held : map.lookup matchId = some entry)
      (first : after.claimsSeen.head? = entry.claimsSeen.head?.or handled.head?)

section Step

variable {manager after : MatchManager Counter} {event : Event Counter}
variable {actions : List (Output Counter)} {matchId : String}

theorem Evolves.unchanged {map : MatchMap Counter} {entry : MatchState Counter}
    (held : map.lookup matchId = some entry) : Evolves map matchId [] entry :=
  .kept entry held (by simp)

theorem Evolves.claimed {map : MatchMap Counter} {entry : MatchState Counter}
    (held : map.lookup matchId = some entry) (claimed : entry.claimsSeen ≠ [])
    (handled : List (PublicKey × Counter)) : Evolves map matchId handled entry := by
  obtain ⟨first, rest, claims⟩ := List.exists_cons_of_ne_nil claimed
  exact .kept entry held (by rw [claims]; rfl)

theorem Evolves.pushed {map : MatchMap Counter} {entry : MatchState Counter} {user : PublicKey}
    {counter : Counter} (held : map.lookup matchId = some entry) :
    Evolves map matchId [(user, counter)] (entry.pushClaim user counter) :=
  .kept entry held (List.head?_append ..)

-- An acknowledged entry has the claims that it had.
theorem Evolves.of_pushAck {entry result : MatchState Counter} {user : PublicKey}
    {handled : List (PublicKey × Counter)}
    (held : manager.matchMap.lookup entry.matchId = some entry)
    (evolves : Evolves (manager.put (entry.pushAck user)).matchMap matchId handled result) :
    Evolves manager.matchMap matchId handled result := by
  cases evolves with
  | created absent unclaimed quiet =>
    simp only [MatchManager.put, AList.lookup_insert_of] at absent
    split at absent
    next => cases absent
    next => exact .created absent unclaimed quiet
  | kept found isFound first =>
    simp only [MatchManager.put, pushAck_matchId, AList.lookup_insert_of] at isFound
    split at isFound
    next same =>
      obtain rfl := Option.some.inj isFound
      exact .kept entry (same ▸ held) first
    next => exact .kept found isFound first

theorem Evolves.advertised (map : MatchMap Counter) (msg : MatchAdvertiseMessage Counter)
    (seen : Int) :
    Evolves map (getMatchID msg.advertiser msg.match_) [] (map.advertised msg seen) := by
  unfold MatchMap.advertised
  cases held : map.lookup (getMatchID msg.advertiser msg.match_) with
  | none => exact .created held rfl rfl
  | some entry => exact .kept entry held (by simp)

theorem Evolves.of_put_advertised (keyed : manager.matchMap.Keyed)
    {msg : MatchAdvertiseMessage Counter} {seen : Int} {entry : MatchState Counter}
    (found : (manager.put (manager.matchMap.advertised msg seen)).matchMap.lookup matchId =
      some entry) : Evolves manager.matchMap matchId [] entry := by
  simp only [MatchManager.put, AList.lookup_insert_of] at found
  split at found
  next same =>
    obtain rfl := Option.some.inj found
    rw [same, advertised_matchId keyed]
    exact .advertised ..
  next => exact .unchanged found

theorem lookup_of_drop {key : String} {entry : MatchState Counter}
    (found : (manager.drop key).matchMap.lookup matchId = some entry) :
    manager.matchMap.lookup matchId = some entry := by
  simp only [MatchManager.drop, AList.lookup_erase_of] at found
  split at found
  next => cases found
  next => exact found

theorem acks_unclaimed (entry : MatchState Counter) (user : PublicKey) :
    (entry.acks user).filterMap (Output.claim matchId) = [] := by
  unfold MatchState.acks
  split <;> rfl

section Search

variable {targetMatch : List String} {counter : Counter} {callback : Callback}
variable (search : Search manager targetMatch counter callback actions after)

include search

theorem Search.evolves (keyed : manager.matchMap.Keyed) {entry : MatchState Counter}
    (found : after.matchMap.lookup matchId = some entry) :
    Evolves manager.matchMap matchId (actions.filterMap (Output.claim matchId)) entry := by
  cases search with
  | join claimed now held open_ =>
    simp only [List.filterMap_cons, Output.claim, List.filterMap_nil]
    simp only [MatchManager.joining] at found
    by_cases same : claimed.matchId = matchId
    · subst same
      simp only [if_true]
      split at found
      next seen =>
        obtain rfl := Option.some.inj (held.symm.trans found)
        exact .claimed held (fun unclaimed => by simp [unclaimed] at seen) _
      next =>
        rw [AList.lookup_insert] at found
        obtain rfl := Option.some.inj found
        exact .pushed held
    · simp only [same, if_false]
      apply Evolves.unchanged
      split at found
      next => exact found
      next => rwa [AList.lookup_insert_ne (Ne.symm same)] at found
  | serve own now seen closed isOwn unclaimed =>
    subst isOwn
    exact .of_put_advertised keyed found
  | fill own now seen user claimCounter rest closed isOwn claims =>
    subst isOwn
    simp only [List.cons_append, List.filterMap_cons, Output.claim, List.filterMap_append,
      acks_unclaimed, List.filterMap_nil, List.append_nil]
    exact .of_put_advertised keyed (lookup_of_drop found)

theorem Search.result_evolves (keyed : manager.matchMap.Keyed) {agent : MatchAgent Counter}
    {result : MatchState Counter} (completes : Completes actions agent result) :
    Evolves manager.matchMap result.matchId (actions.filterMap (Output.claim result.matchId))
      result := by
  obtain ⟨callback', called⟩ := completes
  cases search with
  | join | serve => simp at called
  | fill own now seen user claimCounter rest closed isOwn claims =>
    obtain ⟨-, -, rfl⟩ := callback_mem_fill.mp called
    have evolves : Evolves manager.matchMap own.matchId [] own := by
      subst isOwn
      rw [advertised_matchId keyed]
      exact .advertised ..
    simp only [List.cons_append, List.filterMap_cons, Output.claim, List.filterMap_append,
      acks_unclaimed, List.filterMap_nil, List.append_nil, acknowledged_matchId]
    cases evolves with
    | created absent unclaimed quiet => exact .created absent (by simpa using unclaimed) quiet
    | kept entry held first => exact .kept entry held (by simpa using first)

end Search

theorem Effect.evolves (effect : Effect manager event actions after) (inv : manager.Inv)
    {entry : MatchState Counter} (found : after.matchMap.lookup matchId = some entry) :
    Evolves manager.matchMap matchId (claimsHandled matchId event actions) entry := by
  cases effect with
  | quiet event quiet =>
    cases event with
    | receive msg =>
      cases msg with
      | claim msg =>
        simp only [claimsHandled, Event.claims]
        split
        next same =>
          subst same
          obtain ⟨claim, member, -⟩ := quiet entry found
          exact .claimed found (List.ne_nil_of_mem member) _
        next => exact .unchanged found
      | _ => exact .unchanged found
    | _ => exact .unchanged found
  | listening => exact .unchanged found
  | expired time now map fresh =>
    rw [fresh, Option.filter_eq_some_iff] at found
    exact .unchanged found.1
  | advertised msg seen => exact .of_put_advertised inv.keyed found
  | withdrawn => exact .unchanged (lookup_of_drop found)
  | filled => exact .unchanged (lookup_of_drop found)
  | joined => exact .unchanged (lookup_of_drop found)
  | claimed held user counter isHeld first elsewhere =>
    simp only [claimsHandled, Event.claims]
    simp only [MatchManager.put, pushClaim_matchId, AList.lookup_insert_of] at found
    by_cases same : held.matchId = matchId
    · subst same
      rw [if_pos rfl] at found ⊢
      obtain rfl := Option.some.inj found
      exact .pushed isHeld
    · rw [if_neg same]
      rw [if_neg (Ne.symm same)] at found
      exact .unchanged found
  | hosted held user counter callback isHeld first serves waiting =>
    have other : held.matchId ≠ matchId := by
      rintro rfl
      simp [MatchManager.clear, MatchManager.drop] at found
    simp only [claimsHandled, Event.claims, if_neg other]
    exact .unchanged (lookup_of_drop found)
  | passedOver held user targetMatch callback actions after isHeld joins other targets waiting search =>
    exact .of_pushAck isHeld (search.evolves (inv.keyed.insert rfl) (lookup_of_drop found))
  | started targetMatch counter callback actions after idle search =>
    exact search.evolves inv.keyed found
  | restarted time targetMatch callback actions after due targets waiting search =>
    exact search.evolves inv.keyed found
  | unadvertised key callback throws =>
    cases throws <;> exact .unchanged (lookup_of_drop found)
  | stopped callback throws =>
    cases throws <;> exact .unchanged found

theorem Effect.result_evolves (effect : Effect manager event actions after) (inv : manager.Inv)
    {agent : MatchAgent Counter} {result : MatchState Counter}
    (completes : Completes actions agent result) :
    Evolves manager.matchMap result.matchId (claimsHandled result.matchId event actions)
      result := by
  have completes' := completes
  obtain ⟨callback', called⟩ := completes
  cases effect with
  | quiet | listening | expired | advertised | withdrawn | claimed | filled | unadvertised | stopped =>
    simp at called
  | hosted entry user counter callback held first serves waiting =>
    obtain ⟨-, -, rfl⟩ := callback_mem_hosted.mp called
    simp only [claimsHandled, Event.claims, pushAck_matchId, pushClaim_matchId, if_true]
    have pushed : Evolves manager.matchMap entry.matchId [(user, counter)]
        (entry.pushClaim user counter) := .pushed held
    cases pushed with
    | created absent => cases held.symm.trans absent
    | kept found isFound first => exact .kept found isFound first
  | joined entry callback held joins waiting =>
    obtain ⟨-, -, rfl⟩ := callback_mem_joined.mp called
    exact .kept entry held (by simp [claimsHandled, Event.claims, Output.claim])
  | passedOver entry user targetMatch callback actions after held joins other targets waiting search =>
    exact .of_pushAck held (search.result_evolves (inv.keyed.insert rfl) completes')
  | started targetMatch counter callback actions after idle search =>
    exact search.result_evolves inv.keyed completes'
  | restarted time targetMatch callback actions after due targets waiting search =>
    exact search.result_evolves inv.keyed completes'

theorem Search.one_result {targetMatch : List String} {counter : Counter} {callback : Callback}
    (search : Search manager targetMatch counter callback actions after)
    {agent agent' : MatchAgent Counter} {result result' : MatchState Counter}
    (completes : Completes actions agent result) (completes' : Completes actions agent' result') :
    result = result' := by
  obtain ⟨⟨_, called⟩, ⟨_, called'⟩⟩ := And.intro completes completes'
  cases search with
  | join | serve => simp at called
  | fill own =>
    obtain ⟨-, -, rfl⟩ := callback_mem_fill.mp called
    obtain ⟨-, -, rfl⟩ := callback_mem_fill.mp called'
    rfl

theorem Effect.one_result (effect : Effect manager event actions after)
    {agent agent' : MatchAgent Counter} {result result' : MatchState Counter}
    (completes : Completes actions agent result) (completes' : Completes actions agent' result') :
    result = result' := by
  cases effect with
  | passedOver _ _ _ _ _ _ _ _ _ _ _ search | started _ _ _ _ _ _ search
    | restarted _ _ _ _ _ _ _ _ search => exact search.one_result completes completes'
  | hosted =>
    obtain ⟨⟨_, called⟩, ⟨_, called'⟩⟩ := And.intro completes completes'
    obtain ⟨-, -, rfl⟩ := callback_mem_hosted.mp called
    obtain ⟨-, -, rfl⟩ := callback_mem_hosted.mp called'
    rfl
  | joined =>
    obtain ⟨⟨_, called⟩, ⟨_, called'⟩⟩ := And.intro completes completes'
    obtain ⟨-, -, rfl⟩ := callback_mem_joined.mp called
    obtain ⟨-, -, rfl⟩ := callback_mem_joined.mp called'
    rfl
  | _ =>
    obtain ⟨_, called⟩ := completes
    simp at called

end Step

theorem Evolves.told {moments : List (Moment Counter)} {moment : Moment Counter} {matchId : String}
    {entry : MatchState Counter}
    (evolves : Evolves moment.before.matchMap matchId
      (claimsHandled matchId moment.input.event moment.outputs) entry)
    (present : entry.claimsSeen = [] → (moment.after.matchMap.lookup matchId).isSome)
    (told : ∀ entry, moment.before.matchMap.lookup matchId = some entry →
      (claimRegister matchId).Told moments entry.claimsSeen.head?) :
    (claimRegister matchId).Told (moments ++ [moment]) entry.claimsSeen.head? := by
  cases evolves with
  | created absent unclaimed quiet =>
    rw [unclaimed]
    exact .created ⟨absent, present unclaimed, quiet⟩
  | kept entry held first =>
    rw [first]
    exact (told entry held).kept (Option.isSome_of_eq_some held)

namespace MatchManager

variable [IntCast Counter] (id : PublicKey)

theorem run_told (inputs : List (Input Counter)) (matchId : String) (entry : MatchState Counter)
    (held : (react.run (MatchManager.new id) inputs).1.matchMap.lookup matchId = some entry) :
    (claimRegister matchId).Told (react.trace (MatchManager.new id) inputs)
      entry.claimsSeen.head? := by
  refine (react.trace_invariant (fun manager moments => manager.Inv ∧
    ∀ entry, manager.matchMap.lookup matchId = some entry →
      (claimRegister matchId).Told moments entry.claimsSeen.head?) _ inputs
    ⟨new_inv id, fun _ held => by cases held⟩ fun manager moments input _ kept => ?_).2 entry held
  obtain ⟨inv, told⟩ := kept
  refine ⟨manager.react_inv inv input, fun entry found => ?_⟩
  have evolves := (manager.react_effect inv input).evolves inv found
  rw [claims_visible] at evolves
  exact evolves.told (fun _ => Option.isSome_of_eq_some found) told

/-- Whoever a filled game is given to, in the acks of its search and in its result, was the first to
claim it since its entry was created, whatever has been claimed after that. -/
theorem first_claimant_wins (inputs : List (Input Counter))
    {earlier life later : List (Moment Counter)} {last : Moment Counter}
    (split : react.trace (MatchManager.new id) inputs = earlier ++ life ++ last :: later)
    (one : OneSearch (life ++ [last])) {agent : MatchAgent Counter} {result : MatchState Counter}
    (completes : Completes last.outputs agent result)
    (serving : agent.state = .servingWaitingClaims) :
    agent.matchId = some result.matchId ∧ ∃ claim, result.claimsSeen.head? = some claim ∧
      (∀ moment ∈ life ++ [last], ∀ msg, .publish (.ack msg) ∈ moment.outputs →
        msg = ⟨result.matchId, claim.1⟩) ∧
      (claimRegister result.matchId).First claim (earlier ++ life ++ [last]) := by
  have whole : earlier ++ (life ++ [last]) ++ later = react.trace (MatchManager.new id) inputs := by
    rw [split]
    simp
  have inside : life ++ [last] <:+: react.trace (MatchManager.new id) inputs :=
    ⟨earlier, later, whole⟩
  have chain := react.trace_chain (MatchManager.new id) inputs
  rw [← whole] at chain
  obtain ⟨inv, effect⟩ := trace_effects id inputs (inside.subset (by simp : last ∈ life ++ [last]))
  obtain ⟨before, -, -, recorded, start, -⟩ := react.trace_split split
  have ends := completes_visible.mpr completes
  obtain ⟨claim, hosting⟩ := effect.completes_serving inv ends serving
  refine ⟨hosting.current, claim, hosting.first, fun moment member msg acked => ?_, ?_⟩
  · rcases List.mem_append.mp member with earlier | isLast
    · -- an ack would have ended the search before `last`
      have busy := one.busy chain.left_of_append.right_of_append (by simp) moment earlier
      cases trace_acknowledges id inputs (inside.subset member) with
      | waits _ _ silent => exact absurd rfl (List.countP_eq_zero.mp silent _ acked)
      | once _ _ idle | twice _ _ idle => exact absurd idle busy
    · obtain rfl := List.mem_singleton.mp isLast
      obtain ⟨agent', result', claim', hosting', rfl⟩ :=
        effect.acked inv (mem_visible_publish.mpr acked)
      obtain rfl := effect.one_result ends hosting'.completes
      obtain rfl := Option.some.inj (hosting.first.symm.trans hosting'.first)
      rfl
  · have evolves := effect.result_evolves inv ends
    rw [claims_visible] at evolves
    have claimed : result.claimsSeen ≠ [] := by
      intro unclaimed
      have first := hosting.first
      simp [unclaimed] at first
    have told : (claimRegister result.matchId).Told (earlier ++ life ++ [last])
        result.claimsSeen.head? := by
      refine evolves.told (fun unclaimed => absurd unclaimed claimed) fun entry held => ?_
      rw [← recorded]
      exact run_told id before _ entry (start ▸ held)
    rw [hosting.first] at told
    exact told

theorem first_claimant_wins_restarted :
    let matchId := getMatchID (.small 1) (.string "chess")
    let run := react.trace (MatchManager.new (.small 1) : MatchManager Int)
      [.still 0 (.receive (.advertise ⟨.small 4, .string "chess", 1⟩)),
        .still 1 (.findMatch ["chess"] 1 7),
        .still 2 (.receive (.advertise ⟨.small 1, .string "chess", 1⟩)),
        .still 3 (.receive (.claim ⟨matchId, .small 2, 1⟩)),
        .still 4 (.receive (.claim ⟨matchId, .small 3, 1⟩)),
        .still 5 (.receive (.unadvertise ⟨getMatchID (.small 4) (.string "chess")⟩)),
        .still 6 (.poll 6)]
    (claimRegister matchId).First (.small 2, 1) run ∧
      ∀ moment ∈ run.drop 1, ∀ msg, .publish (.ack msg) ∈ moment.outputs →
        msg = ⟨matchId, .small 2⟩ := by
  intro matchId run
  let agent : MatchAgent Int :=
    ⟨.small 1, .servingWaitingClaims, 1, 6, some ["chess"], some matchId, some 7⟩
  let result : MatchState Int :=
    ⟨.small 1, 1, .string "chess", matchId, 6, [(.small 2, 1), (.small 3, 1)], [.small 2]⟩
  have split : run = run.take 1 ++ (run.drop 1).take 5 ++ run[6] :: [] := rfl
  have completes : Completes run[6].outputs agent result := ⟨7, by decide +kernel⟩
  have one : OneSearch ((run.drop 1).take 5 ++ [run[6]]) := by
    unfold OneSearch
    decide +kernel
  obtain ⟨-, claim, first, acked, told⟩ := first_claimant_wins (.small 1) _ split one completes rfl
  obtain rfl : claim = (.small 2, 1) := Option.some.inj first.symm
  exact ⟨told, acked⟩

end MatchManager

end RoundTable.Matcher
