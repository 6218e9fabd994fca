import RoundTable.Matcher.Protocol

set_option autoImplicit false

namespace RoundTable.Matcher

open Script Reactive

section Acting

variable {Counter : Type}

-- The counter of the search that acts in an event: the one under way, or the one called for.
def Acts (manager : MatchManager Counter) (event : Event Counter) (counter : Counter) : Prop :=
  (manager.matchAgent.state ≠ .idle ∧ counter = manager.matchAgent.counter) ∨
    (manager.matchAgent.state = .idle ∧
      ∃ targetMatch callback, event = .findMatch targetMatch counter callback)

variable {manager after : MatchManager Counter} {event : Event Counter}
variable {actions : List (Output Counter)} (effect : Effect manager event actions after)

inductive Searches (manager : MatchManager Counter) (event : Event Counter)
    (actions : List (Output Counter)) (after : MatchManager Counter) : Prop where
  | searches (held after' : MatchManager Counter) (targetMatch : List String) (counter : Counter)
      (callback : Callback) (acts : Acts manager event counter)
      (search : Search held targetMatch counter callback actions after')
      (keyed : held.matchMap.Keyed)
      (same : held.matchAgent = manager.matchAgent) (agent : after.matchAgent = after'.matchAgent)
  | rests (agent : after.matchAgent.state ≠ .idle → after.matchAgent = manager.matchAgent)
      (adverts : ∀ msg, .publish (.advertise msg) ∉ actions)
      (claims : ∀ msg, .publish (.claim msg) ∉ actions)
      (ends : ∀ agent result, Completes actions agent result → agent = manager.matchAgent ∧
        manager.matchAgent.state ≠ .idle ∧ after.matchAgent.state = .idle)

include effect in
theorem Effect.searches (inv : manager.Inv) : Searches manager event actions after := by
  cases effect with
  | quiet | listening | expired | advertised | withdrawn | claimed | filled =>
    exact .rests (fun _ => rfl) (by simp) (by simp) (by simp [Completes])
  | hosted entry user counter callback held first serves waiting =>
    refine .rests (fun busy => absurd rfl busy) (by simp) (by simp) ?_
    rintro agent result ⟨callback', called⟩
    obtain ⟨same, -, -⟩ := callback_mem_hosted.mp called
    exact ⟨same, by simp [serves.1], rfl⟩
  | joined entry callback held joins waiting =>
    refine .rests (fun busy => absurd rfl busy) (by simp) (by simp) ?_
    rintro agent result ⟨callback', called⟩
    obtain ⟨same, -, -⟩ := callback_mem_joined.mp called
    exact ⟨same, by simp [joins.1], rfl⟩
  | passedOver entry user targetMatch callback actions after held joins other targets waiting search =>
    exact .searches _ _ targetMatch _ callback (.inl ⟨by simp [joins.1], rfl⟩) search
      (inv.keyed.insert rfl) rfl rfl
  | started targetMatch counter callback actions after idle search =>
    exact .searches _ _ targetMatch counter callback (.inr ⟨idle, targetMatch, callback, rfl⟩) search
      inv.keyed rfl rfl
  | restarted time targetMatch callback actions after due targets waiting search =>
    exact .searches _ _ targetMatch _ callback (.inl ⟨RestartDue.busy due, rfl⟩) search inv.keyed rfl
      rfl
  | unadvertised matchId callback throws serves waiting =>
    refine .rests (fun busy => ?_) (by simp) (by simp) (by simp [Completes])
    cases throws
    · exact absurd rfl busy
    · rfl
  | stopped callback throws joining waiting =>
    refine .rests (fun busy => ?_) (by simp) (by simp) (by simp [Completes])
    cases throws
    · exact absurd rfl busy
    · rfl

theorem Search.pursues {manager after : MatchManager Counter} {targetMatch : List String}
    {counter : Counter} {callback : Callback} {actions : List (Output Counter)}
    (search : Search manager targetMatch counter callback actions after)
    (busy : after.matchAgent.state ≠ .idle) :
    after.matchAgent.counter = counter ∧
      ((after.matchAgent.state = .joiningWaitingAck ∧ ∃ msg, actions = [.publish (.claim msg)] ∧
          msg.counter = counter ∧ after.matchAgent.matchId = some msg.matchId) ∨
        (after.matchAgent.state = .servingWaitingClaims ∧
          ∃ msg, actions = [.publish (.advertise msg)] ∧ msg.counter = counter)) := by
  cases search with
  | join => exact ⟨rfl, .inl ⟨rfl, _, rfl, rfl, rfl⟩⟩
  | serve => exact ⟨rfl, .inr ⟨rfl, _, rfl, rfl⟩⟩
  | fill => exact absurd rfl busy

theorem Search.ended_idle {manager after : MatchManager Counter} {targetMatch : List String}
    {counter : Counter} {callback : Callback} {actions : List (Output Counter)}
    (search : Search manager targetMatch counter callback actions after)
    {agent : MatchAgent Counter} {result : MatchState Counter}
    (ends : Completes actions agent result) :
    after.matchAgent.state = .idle ∧ agent.counter = counter ∧
      ∃ msg, .publish (.advertise msg) ∈ actions ∧ msg.counter = counter ∧
        ∀ claim, .publish (.claim claim) ∉ actions := by
  obtain ⟨callback', called⟩ := ends
  cases search with
  | join | serve => simp at called
  | fill entry now seen user claimCounter rest closed own claims =>
    obtain ⟨rfl, -, -⟩ := callback_mem_fill.mp called
    exact ⟨rfl, rfl, manager.advert targetMatch counter, by simp, rfl, by simp [mem_acks]⟩

include effect in
-- A claim is the one message of its step, and in the name of the agent.
theorem Effect.claims (inv : manager.Inv) {msg : MatchClaimMessage Counter}
    (isPublished : .publish (.claim msg) ∈ actions) :
    actions = [.publish (.claim msg)] ∧ msg.user = manager.matchAgent.id := by
  cases effect.searches inv with
  | searches held after targetMatch counter callback acts search keyed same agent =>
    obtain ⟨only, user, -⟩ := search.claimed isPublished
    exact ⟨only, by rw [user, same]⟩
  | rests agent adverts claims ends => exact absurd isPublished (claims msg)

theorem Search.claims_other {held after : MatchManager Counter} {targetMatch : List String}
    {counter : Counter} {callback : Callback} {actions : List (Output Counter)}
    (search : Search held targetMatch counter callback actions after)
    {msg : MatchClaimMessage Counter} (isPublished : .publish (.claim msg) ∈ actions) :
    ∃ entry, held.matchMap.lookup msg.matchId = some entry ∧
      entry.advertiser ≠ held.matchAgent.id := by
  cases search with
  | join entry now isHeld open_ =>
    obtain rfl : msg = _ := by simpa using isPublished
    simp only [joinable, Bool.and_eq_true, decide_eq_true_eq] at open_
    exact ⟨entry, isHeld, open_.1.2⟩
  | serve => simp at isPublished
  | fill => simp [mem_acks] at isPublished

include effect in
theorem Effect.claims_other {msg : MatchClaimMessage Counter}
    (isPublished : .publish (.claim msg) ∈ actions) :
    ∃ entry, manager.matchMap.lookup msg.matchId = some entry ∧
      entry.advertiser ≠ manager.matchAgent.id := by
  cases effect with
  | passedOver entry user targetMatch callback actions after held joins other targets waiting search =>
    obtain ⟨found, isFound, differs⟩ := search.claims_other isPublished
    simp only [MatchManager.put, AList.lookup_insert_of] at isFound
    split at isFound
    next same =>
      obtain rfl := Option.some.inj isFound
      exact ⟨entry, by rw [same]; exact held, differs⟩
    next => exact ⟨found, isFound, differs⟩
  | started _ _ _ _ _ _ search | restarted _ _ _ _ _ _ _ _ search =>
    exact search.claims_other isPublished
  | _ => simp at isPublished

theorem Search.ended_drops {manager after : MatchManager Counter} {targetMatch : List String}
    {counter : Counter} {callback : Callback} {actions : List (Output Counter)}
    (search : Search manager targetMatch counter callback actions after)
    {agent : MatchAgent Counter} {result : MatchState Counter}
    (ends : Completes actions agent result) : after.matchMap.lookup result.matchId = none := by
  obtain ⟨callback', called⟩ := ends
  cases search with
  | join | serve => simp at called
  | fill entry now seen user claimCounter rest closed own claims =>
    obtain ⟨-, -, rfl⟩ := callback_mem_fill.mp called
    rw [acknowledged_matchId]
    exact AList.lookup_erase ..

include effect in
theorem Effect.ended_drops {agent : MatchAgent Counter} {result : MatchState Counter}
    (ends : Completes actions agent result) : after.matchMap.lookup result.matchId = none := by
  have ends' := ends
  obtain ⟨callback', called⟩ := ends
  cases effect with
  | quiet | listening | expired | advertised | withdrawn | claimed | filled | unadvertised | stopped =>
    simp at called
  | hosted entry user counter callback held first serves waiting =>
    obtain ⟨-, -, rfl⟩ := callback_mem_hosted.mp called
    simp [MatchManager.clear, MatchManager.drop]
  | joined entry callback held joins waiting =>
    obtain ⟨-, -, rfl⟩ := callback_mem_joined.mp called
    simp [MatchManager.clear, MatchManager.drop]
  | passedOver entry user targetMatch callback actions after held joins other targets waiting search =>
    rw [MatchManager.drop, AList.lookup_erase_of, search.ended_drops ends', ite_self]
  | started _ _ _ _ _ _ search | restarted _ _ _ _ _ _ _ _ search =>
    exact search.ended_drops ends'

def Output.hosts [DecidableEq Counter] (msg : MatchClaimMessage Counter) : Output Counter → Bool
  | .callback agent _ (some result) =>
    agent.state = .servingWaitingClaims && result.matchId = msg.matchId &&
      result.claimsSeen.head? = some (msg.user, msg.counter)
  | _ => false

theorem visible_place {outputs : List (Output Counter)} {shown a b : Output Counter}
    (only : visible outputs = [shown]) {i j : Nat} (first : outputs[i]? = some a)
    (second : outputs[j]? = some b) (isVisible : a.visible = true) (isVisible' : b.visible = true) :
    i = j := by
  have one : outputs.countP Output.visible = 1 := by
    rw [List.countP_eq_length_filter]
    exact congrArg List.length only
  rcases Nat.lt_trichotomy i j with before | same | after
  · have := two_le_countP Output.visible before first second isVisible isVisible'
    omega
  · exact same
  · have := two_le_countP Output.visible after second first isVisible' isVisible
    omega

theorem Hosts.any [DecidableEq Counter] {outputs : List (Output Counter)}
    {agent : MatchAgent Counter} {result : MatchState Counter} {claim : PublicKey × Counter}
    (hosts : Hosts outputs agent result claim) :
    outputs.any (Output.hosts ⟨result.matchId, claim.1, claim.2⟩) = true := by
  obtain ⟨callback, called⟩ := hosts.completes
  exact List.any_eq_true.mpr ⟨_, called, by simp [Output.hosts, hosts.serving, hosts.first]⟩

theorem any_visible [DecidableEq Counter] (msg : MatchClaimMessage Counter)
    (outputs : List (Output Counter)) :
    (visible outputs).any (Output.hosts msg) = outputs.any (Output.hosts msg) := by
  rw [visible, List.any_filter]
  exact congrArg (List.any outputs) (funext fun output => by cases output <;> rfl)

def Event.delivers [DecidableEq Counter] (msg : MatchClaimMessage Counter) : Event Counter → Bool
  | .receive (.claim msg') => msg' = msg
  | _ => false

def MatchManager.holds [DecidableEq Counter] (manager : MatchManager Counter)
    (msg : MatchClaimMessage Counter) : Bool :=
  (manager.matchMap.lookup msg.matchId).any fun entry => (msg.user, msg.counter) ∈ entry.claimsSeen

variable [DecidableEq Counter]

theorem holds_iff {msg : MatchClaimMessage Counter} :
    manager.holds msg = true ↔ ∃ entry, manager.matchMap.lookup msg.matchId = some entry ∧
      (msg.user, msg.counter) ∈ entry.claimsSeen := by
  simp [MatchManager.holds, Option.any_eq_true]

include effect in
theorem Effect.hosted_claim (inv : manager.Inv) {msg : MatchClaimMessage Counter}
    (hosted : actions.any (Output.hosts msg) = true) :
    after.holds msg = false ∧ (manager.holds msg = true ∨ event.delivers msg = true) := by
  obtain ⟨output, member, hosts⟩ := List.any_eq_true.mp hosted
  cases output with
  | publish | listener => cases hosts
  | callback agent callback result =>
    cases result with
    | none => cases hosts
    | some result =>
      obtain ⟨⟨serving, sameMatch⟩, first⟩ : (agent.state = .servingWaitingClaims ∧
          result.matchId = msg.matchId) ∧
            result.claimsSeen.head? = some (msg.user, msg.counter) := by
        simpa [Output.hosts] using hosts
      have ends : Completes actions agent result := ⟨callback, member⟩
      have dropped := effect.ended_drops ends
      rw [sameMatch] at dropped
      refine ⟨by simp [MatchManager.holds, dropped], ?_⟩
      obtain ⟨claim, hosting⟩ := effect.completes_serving inv ends serving
      obtain rfl := Option.some.inj (hosting.first.symm.trans first)
      obtain ⟨entry, held, -, -, claimed | delivered⟩ := hosting.held
      · exact .inl (holds_iff.mpr ⟨entry, sameMatch ▸ held, claimed⟩)
      · right
        rw [delivered, sameMatch]
        simp [Event.delivers]

include effect in
theorem Effect.holds (inv : manager.Inv) {msg : MatchClaimMessage Counter}
    (other : msg.user ≠ manager.matchAgent.id) :
    (actions.any (Output.hosts msg)).toNat + (after.holds msg).toNat ≤
      (manager.holds msg).toNat + (event.delivers msg).toNat := by
  by_cases hosted : actions.any (Output.hosts msg) = true
  · -- the match of `msg` has been dropped, and the host had the claim from somewhere
    have from_somewhere := effect.hosted_claim inv hosted
    rw [hosted, from_somewhere.1]
    rcases from_somewhere.2 with held | delivered
    · simp [held]
    · simp [delivered]
  · have kept : after.holds msg = true → manager.holds msg = true ∨ event.delivers msg = true := by
      have closed : Closed
          (fun key (entry : MatchState Counter) => key = msg.matchId →
            (msg.user, msg.counter) ∈ entry.claimsSeen →
              manager.holds msg = true ∨ event.delivers msg = true)
          (fun _ => True) fun msg' => msg' = msg → event.delivers msg = true := by
        refine ⟨fun _ _ _ _ member => ?_, fun _ _ _ kept => kept, ?_⟩
        · exact absurd member List.not_mem_nil
        · intro entry user counter delivered _ kept same member
          rcases List.mem_append.mp member with before | now
          · exact kept same before
          · obtain ⟨rfl, rfl⟩ := Prod.mk.inj (List.mem_singleton.mp now)
            exact .inr (delivered (by rw [same]))
      intro held
      obtain ⟨entry, found, member⟩ := holds_iff.mp held
      refine effect.all closed inv.keyed (fun _ _ => trivial) (fun msg' isPublished same => ?_)
        (fun _ _ => trivial) (fun msg' received same => ?_) (fun key entry found same member => ?_)
        _ entry found rfl member
      · subst same
        exact absurd (effect.claims inv isPublished).2 other
      · simp [received, Event.delivers, same]
      · exact .inl (holds_iff.mpr ⟨entry, same ▸ found, member⟩)
    rw [Bool.not_eq_true] at hosted
    rw [hosted]
    cases held : after.holds msg with
    | false => simp
    | true => rcases kept held with before | delivered <;> simp [*]

end Acting

end RoundTable.Matcher
