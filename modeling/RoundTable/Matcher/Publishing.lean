import RoundTable.Matcher.Completions
import RoundTable.Matcher.Protocol

set_option autoImplicit false

namespace RoundTable.Matcher

open Reactive

variable {Counter : Type}

structure SearchRequest (Counter : Type) where
  targetMatch : List String
  counter : Counter

/-- The messages of a search: the advert, the withdrawals and the acks of the one match it offers, and
claims on matches of others that it looks for. -/
def SearchRequest.Allows (id : PublicKey) (request : SearchRequest Counter) : Message Counter → Prop
  | .advertise msg => msg = ⟨id, advertised request.targetMatch, request.counter⟩
  | .claim msg => msg.user = id ∧ msg.counter = request.counter ∧
      ∃ advertiser target, advertiser ≠ id ∧ target ∈ request.targetMatch ∧
        msg.matchId = getMatchID advertiser (.string target)
  | .unadvertise msg => msg.matchId = getMatchID id (advertised request.targetMatch)
  | .ack msg => msg.matchId = getMatchID id (advertised request.targetMatch)

def Event.asks (manager : MatchManager Counter) : Event Counter → Option (SearchRequest Counter)
  | .findMatch targetMatch counter _ =>
    if manager.matchAgent.state = .idle then some ⟨targetMatch, counter⟩ else none
  | _ => none

def asked (moments : List (Moment Counter)) : Option (SearchRequest Counter) :=
  (moments.filterMap fun moment => moment.input.event.asks moment.before).getLast?

theorem asked_snoc (moments : List (Moment Counter)) (moment : Moment Counter) :
    asked (moments ++ [moment]) =
      (moment.input.event.asks moment.before).or (asked moments) := by
  rw [asked, List.filterMap_append, List.getLast?_append]
  cases asks : moment.input.event.asks moment.before <;> simp [asks, asked]

namespace MatchManager

def request (manager : MatchManager Counter) : Option (SearchRequest Counter) :=
  if manager.matchAgent.state = .idle then none
  else manager.matchAgent.targetMatch.map fun targetMatch =>
    ⟨targetMatch, manager.matchAgent.counter⟩

theorem request_eq {manager : MatchManager Counter} {targetMatch : List String}
    (busy : manager.matchAgent.state ≠ .idle)
    (targets : manager.matchAgent.targetMatch = some targetMatch) :
    manager.request = some ⟨targetMatch, manager.matchAgent.counter⟩ := by
  simp [request, busy, targets]

@[simp] theorem request_clear (manager : MatchManager Counter) : manager.clear.request = none := rfl

@[simp] theorem request_put (manager : MatchManager Counter) (entry : MatchState Counter) :
    (manager.put entry).request = manager.request := rfl

@[simp] theorem request_drop (manager : MatchManager Counter) (matchId : String) :
    (manager.drop matchId).request = manager.request := rfl

end MatchManager

section Step

variable {manager after : MatchManager Counter} {event : Event Counter}
variable {actions : List (Output Counter)}

theorem Search.allows {targetMatch : List String} {counter : Counter} {callback : Callback}
    (search : Search manager targetMatch counter callback actions after)
    (sound : manager.matchMap.All MatchState.Sound) {msg : Message Counter}
    (published : .publish msg ∈ actions) :
    SearchRequest.Allows manager.matchAgent.id ⟨targetMatch, counter⟩ msg := by
  have keyed : manager.matchMap.Keyed := fun key entry held => (sound key entry held).keyed
  cases search with
  | join entry now held open_ =>
    obtain rfl : msg = _ := by simpa using published
    simp only [joinable, Bool.and_eq_true, List.any_eq_true, decide_eq_true_eq] at open_
    obtain ⟨⟨⟨target, member, offered⟩, other⟩, -⟩ := open_
    have named := (sound _ _ held).identified
    rw [offered] at named
    exact ⟨rfl, rfl, entry.advertiser, target, other, member, named.symm⟩
  | serve entry now seen closed own unclaimed =>
    obtain rfl : msg = _ := by simpa using published
    rfl
  | fill entry now seen user claimCounter rest closed own claims =>
    have named := advertised_matchId keyed (manager.advert targetMatch counter) seen
    rw [← own] at named
    obtain rfl | acked : msg = .advertise (manager.advert targetMatch counter) ∨
        msg = .ack ⟨entry.matchId, user⟩ := by simpa [mem_acks] using published
    · rfl
    · rw [acked]
      exact named

theorem Search.request {targetMatch : List String} {counter : Counter} {callback : Callback}
    (search : Search manager targetMatch counter callback actions after) :
    after.request = none ∨ after.request = some ⟨targetMatch, counter⟩ := by
  cases search with
  | join | serve => exact .inr rfl
  | fill => exact .inl rfl

section Effect

variable (effect : Effect manager event actions after)

include effect

theorem Effect.allows (inv : manager.Inv) {msg : Message Counter}
    (published : .publish msg ∈ actions) :
    ∃ request, (event.asks manager).or manager.request = some request ∧
      request.Allows manager.matchAgent.id msg := by
  -- a host acknowledges and withdraws the match it serves
  have serving {matchId : String} (serves : manager.Serves matchId) :
      ∃ targetMatch, manager.request = some ⟨targetMatch, manager.matchAgent.counter⟩ ∧
        matchId = getMatchID manager.matchAgent.id (Matcher.advertised targetMatch) := by
    have consistent := inv.consistent
    simp only [MatchAgent.Consistent, serves.1] at consistent
    obtain ⟨targetMatch, -, targets, current, -⟩ := consistent
    exact ⟨targetMatch, MatchManager.request_eq (by simp [serves.1]) targets,
      Option.some.inj (serves.2.symm.trans current)⟩
  cases effect with
  | quiet | listening | expired | advertised | withdrawn | claimed | filled | joined | stopped =>
    simp at published
  | hosted entry user counter callback held first serves waiting =>
    obtain rfl : msg = .ack ⟨entry.matchId, user⟩ := by simpa using published
    obtain ⟨targetMatch, request, own⟩ := serving serves
    exact ⟨⟨targetMatch, manager.matchAgent.counter⟩, by simp [Event.asks, request], own⟩
  | unadvertised matchId callback throws serves waiting =>
    obtain rfl : msg = .unadvertise ⟨matchId⟩ := by simpa using published
    obtain ⟨targetMatch, request, own⟩ := serving serves
    exact ⟨⟨targetMatch, manager.matchAgent.counter⟩, by simp [Event.asks, request], own⟩
  | passedOver entry user targetMatch callback actions after held joins other targets waiting search =>
    have sound := inv.sound _ _ held
    have request := MatchManager.request_eq (by simp [joins.1]) targets
    exact ⟨⟨targetMatch, manager.matchAgent.counter⟩, by simp [Event.asks, request],
      search.allows (inv.sound.insert ⟨rfl, sound.identified, sound.claimants⟩) published⟩
  | started targetMatch counter callback actions after idle search =>
    exact ⟨⟨targetMatch, counter⟩, by simp [Event.asks, idle], search.allows inv.sound published⟩
  | restarted time targetMatch callback actions after due targets waiting search =>
    have request := MatchManager.request_eq (RestartDue.busy due) targets
    exact ⟨⟨targetMatch, manager.matchAgent.counter⟩, by simp [Event.asks, request],
      search.allows inv.sound published⟩

theorem Effect.request (request : SearchRequest Counter) (kept : after.request = some request) :
    (event.asks manager).or manager.request = some request := by
  cases effect with
  | quiet event quiet =>
    cases event with
    | findMatch targetMatch counter callback =>
      have busy : manager.matchAgent.state ≠ .idle := quiet
      simpa [Event.asks, busy] using kept
    | _ => exact kept
  | listening | expired | advertised | withdrawn | claimed | filled => exact kept
  | hosted | joined => cases kept
  | passedOver entry user targetMatch callback actions after held joins other targets waiting search =>
    rw [MatchManager.request_drop] at kept
    rcases search.request with none | some
    · rw [none] at kept
      cases kept
    · rw [some] at kept
      have before := MatchManager.request_eq (by simp [joins.1]) targets
      simpa [Event.asks, before] using kept
  | started targetMatch counter callback actions after idle search =>
    rcases search.request with none | some
    · rw [none] at kept
      cases kept
    · rw [some] at kept
      simpa [Event.asks, idle] using kept
  | restarted time targetMatch callback actions after due targets waiting search =>
    rcases search.request with none | some
    · rw [none] at kept
      cases kept
    · rw [some] at kept
      have before := MatchManager.request_eq (RestartDue.busy due) targets
      simpa [Event.asks, before] using kept
  | unadvertised matchId callback throws serves waiting =>
    cases throws
    · cases kept
    · exact kept
  | stopped callback throws joining waiting =>
    cases throws
    · cases kept
    · exact kept

end Effect

end Step

namespace MatchManager

variable [IntCast Counter] (id : PublicKey)

theorem run_asked (inputs : List (Input Counter)) (request : SearchRequest Counter)
    (kept : (react.run (MatchManager.new id) inputs).1.request = some request) :
    asked (react.trace (MatchManager.new id) inputs) = some request := by
  refine react.trace_steps (fun manager moments => ∀ request, manager.request = some request →
    asked moments = some request) _ inputs (fun _ impossible => by cases impossible)
    (fun moment member answer moments before request kept => ?_) request kept
  have effect := (trace_effects id inputs member).2
  have passed := effect.request request kept
  rw [asked_snoc]
  cases asks : moment.input.event.asks moment.before with
  | some _ => simpa [asks] using passed
  | none =>
    rw [asks, Option.none_or] at passed
    exact before request passed

/-- Whatever a manager is sent, it publishes only messages of the search that was asked for last. -/
theorem publishes_what_was_asked (inputs : List (Input Counter))
    {earlier later : List (Moment Counter)} {moment : Moment Counter}
    (split : react.trace (MatchManager.new id) inputs = earlier ++ moment :: later)
    {msg : Message Counter} (published : .publish msg ∈ moment.outputs) :
    ∃ request, asked (earlier ++ [moment]) = some request ∧ request.Allows id msg := by
  have member : moment ∈ react.trace (MatchManager.new id) inputs := by simp [split]
  obtain ⟨inv, effect⟩ := trace_effects id inputs member
  obtain ⟨before, -, -, rfl, start, -⟩ := react.trace_split split
  have own : moment.before.matchAgent.id = id := start ▸ run_id id before
  obtain ⟨request, current, allowed⟩ := effect.allows inv (mem_visible_publish.mpr published)
  refine ⟨request, ?_, own ▸ allowed⟩
  rw [asked_snoc]
  cases asks : moment.input.event.asks moment.before with
  | some _ => simpa [asks] using current
  | none =>
    rw [asks, Option.none_or, start] at current
    rw [Option.none_or]
    exact run_asked id before request current

theorem publishes_what_was_asked_acked :
    let matchId := getMatchID (.small 1) (.string "chess")
    let call : Input Int := .still 0 (.findMatch ["chess"] 1 7)
    let claim : Input Int := .still 1 (.receive (.claim ⟨matchId, .small 2, 1⟩))
    ∃ request, asked (react.trace (MatchManager.new (.small 1)) ([call] ++ [claim])) = some request ∧
      request.Allows (.small 1) (.ack ⟨matchId, .small 2⟩ : Message Int) := by
  intro matchId call claim
  have published : .publish (.ack ⟨matchId, .small 2⟩) ∈
      (react (react.run (MatchManager.new (.small 1)) [call]).1 claim).2 := by
    decide +kernel
  clear_value matchId call claim
  have split := react.trace_snoc (MatchManager.new (.small 1)) [call] claim
  rw [split]
  exact publishes_what_was_asked (.small 1) ([call] ++ [claim]) split published

end MatchManager

end RoundTable.Matcher
