import RoundTable.Matcher.Completions
import RoundTable.Matcher.Naming
import RoundTable.Matcher.Polls

set_option autoImplicit false

namespace RoundTable.Matcher

open Reactive

variable {Counter : Type}

def MatchManager.Ready (manager : MatchManager Counter) : Prop :=
  manager.matchAgent.state = .servingWaitingClaims →
    ∃ matchId entry, manager.matchAgent.matchId = some matchId ∧
      manager.matchMap.lookup matchId = some entry ∧
        entry.advertiser = manager.matchAgent.id ∧ entry.claimsSeen = [] ∧
          ∀ env : Env Counter, env.realm = .pristine → ∀ user counter,
            .publish (.ack ⟨matchId, user⟩) ∈
              (manager.handle env (.receive (.claim ⟨matchId, user, counter⟩))).2

-- What the others send: adverts of their own, and nothing but claims for the matches of `id`.
def Event.Honest (id : PublicKey) (named : PublicKey → MatchField → Prop) : Event Counter → Prop
  | .receive (.advertise msg) => msg.advertiser ≠ id
  | .receive (.unadvertise msg) =>
    ∀ match_, named id match_ → msg.matchId ≠ getMatchID id match_
  | .receive (.ack msg) => ∀ match_, named id match_ → msg.matchId ≠ getMatchID id match_
  | _ => True

-- When the last poll was, once an event has been handled.
def Event.polled : Event Counter → Int → Int
  | .poll time, _ => time
  | _, polled => polled

def pollInterval : Int := 5000

/-- The readings of one event: in order, none before the last poll, and none long after it. -/
structure OnTime (polled : Int) (env : Env Counter) : Prop where
  ordered : ∀ m n, m ≤ n → env.clock m ≤ env.clock n
  later : ∀ n, polled ≤ env.clock n
  soon : ∀ n, env.clock n - polled ≤ pollInterval

def Punctual : Int → List (Input Counter) → Prop
  | _, [] => True
  | polled, input :: inputs =>
    OnTime (input.event.polled polled) input.env ∧ Punctual (input.event.polled polled) inputs

section Step

variable {manager after : MatchManager Counter}

theorem MatchManager.Inv.acknowledges (inv : manager.Inv) {matchId : String}
    {entry : MatchState Counter} (serves : manager.Serves matchId)
    (held : manager.matchMap.lookup matchId = some entry) (env : Env Counter)
    (clean : env.realm = .pristine) (user : PublicKey) (counter : Counter) :
    .publish (.ack ⟨matchId, user⟩) ∈
      (manager.handle env (.receive (.claim ⟨matchId, user, counter⟩))).2 := by
  rw [← mem_visible_publish]
  have unclaimed := inv.unclaimed serves.1 _ _ held serves.2
  have effect := claim_effect env clean manager inv ⟨matchId, user, counter⟩
  simp only at effect
  generalize visible _ = actions at effect ⊢
  generalize (manager.handle env _).1 = after at effect
  cases effect with
  | quiet _ quiet =>
    obtain ⟨claim, member, -⟩ := quiet entry held
    rw [unclaimed] at member
    cases member
  | claimed _ _ _ _ _ elsewhere => exact absurd serves elsewhere
  | hosted => simp

theorem Search.acts {targetMatch : List String} {counter : Counter} {callback : Callback}
    {actions : List (Output Counter)}
    (search : Search manager targetMatch counter callback actions after) :
    actions.any Output.acts = true := by
  cases search <;> simp [Output.acts]

theorem Search.serves {targetMatch : List String} {counter : Counter} {callback : Callback}
    {actions : List (Output Counter)}
    (search : Search manager targetMatch counter callback actions after)
    (keyed : manager.matchMap.Keyed) {matchId : String} (serves : after.Serves matchId) :
    matchId = getMatchID manager.matchAgent.id (Matcher.advertised targetMatch) ∧
      ∃ entry, after.matchMap.lookup matchId = some entry := by
  cases search with
  | join => cases serves.1
  | fill => cases serves.1
  | serve entry now seen closed own unclaimed =>
    obtain rfl : entry.matchId = matchId := Option.some.inj serves.2
    refine ⟨own ▸ advertised_matchId keyed _ seen, entry, ?_⟩
    exact AList.lookup_insert _

end Step

/-- What keeps the entry of a host: it was seen no earlier than the search has acted, and the
search has acted no more than the rebroadcast timeout before the last poll. -/
structure Keeps (id : PublicKey) (named : PublicKey → MatchField → Prop) (polled : Int)
    (manager : MatchManager Counter) : Prop where
  inv : manager.Inv
  own : manager.matchAgent.id = id
  names : manager.Names named
  entry : ∀ matchId, manager.Serves matchId → ∃ entry, manager.matchMap.lookup matchId = some entry ∧
    manager.matchAgent.lastActionStart ≤ entry.lastSeen
  acted : manager.matchAgent.state = .servingWaitingClaims →
    polled - manager.matchAgent.lastActionStart ≤ servingRebroadcastTimeout

section Step

variable {id : PublicKey} {named : PublicKey → MatchField → Prop} {polled : Int}
variable {manager : MatchManager Counter}

theorem Keeps.serves_own (keeps : Keeps id named polled manager) {matchId : String}
    (serves : manager.Serves matchId) :
    ∃ match_, named id match_ ∧ matchId = getMatchID id match_ := by
  have consistent := keeps.inv.consistent
  simp only [MatchAgent.Consistent, serves.1] at consistent
  obtain ⟨targetMatch, _, targets, current, -⟩ := consistent
  refine ⟨advertised targetMatch, keeps.own ▸ keeps.names.targets _ targets, ?_⟩
  rw [← Option.some.inj (current.symm.trans serves.2), keeps.own]

theorem Keeps.ready (distinct : Distinct named) (keeps : Keeps id named polled manager) :
    manager.Ready := by
  intro serving
  obtain ⟨-, -, matchId, -, -, current, -⟩ := keeps.inv.consistent.waits (by simp [serving])
  have serves : manager.Serves matchId := ⟨serving, current⟩
  obtain ⟨entry, held, -⟩ := keeps.entry matchId serves
  obtain ⟨match_, isNamed, same⟩ := keeps.serves_own serves
  have advertiser := (distinct.same keeps.inv keeps.names held isNamed same).1
  exact ⟨matchId, entry, current, held, advertiser.trans keeps.own.symm,
    keeps.inv.unclaimed serving _ _ held current,
    fun env clean user counter => keeps.inv.acknowledges serves held env clean user counter⟩

theorem Keeps.entry_dropped (keeps : Keeps id named polled manager) {matchId dropped : String}
    (serves : manager.Serves matchId)
    (other : ∀ match_, named id match_ → dropped ≠ getMatchID id match_) :
    ∃ entry, (manager.drop dropped).matchMap.lookup matchId = some entry ∧
      manager.matchAgent.lastActionStart ≤ entry.lastSeen := by
  obtain ⟨match_, isNamed, same⟩ := keeps.serves_own serves
  obtain ⟨entry, held, seen⟩ := keeps.entry matchId serves
  have differ : matchId ≠ dropped := fun equal => other match_ isNamed (equal ▸ same)
  exact ⟨entry, by rw [MatchManager.drop, AList.lookup_erase_ne differ]; exact held, seen⟩

theorem Keeps.entry_put (keeps : Keeps id named polled manager) {matchId : String}
    (serves : manager.Serves matchId) {entry : MatchState Counter}
    (other : matchId ≠ entry.matchId) :
    ∃ found, (manager.put entry).matchMap.lookup matchId = some found ∧
      manager.matchAgent.lastActionStart ≤ found.lastSeen := by
  obtain ⟨found, held, seen⟩ := keeps.entry matchId serves
  exact ⟨found, by rw [MatchManager.put, AList.lookup_insert_ne other]; exact held, seen⟩

-- The poll that would have renewed the advert comes before the entry is too old.
theorem Keeps.entry_fresh (keeps : Keeps id named polled manager) {matchId : String}
    (serves : manager.Serves matchId) {now : Int} (soon : now - polled ≤ pollInterval) :
    ∃ entry, (manager.matchMap.lookup matchId).filter (MatchState.fresh now) = some entry ∧
      manager.matchAgent.lastActionStart ≤ entry.lastSeen := by
  obtain ⟨entry, held, seen⟩ := keeps.entry matchId serves
  have acted := keeps.acted serves.1
  have recent : now - entry.lastSeen ≤ advertiseTimeout := by
    simp only [advertiseTimeout, servingRebroadcastTimeout, pollInterval] at *
    omega
  have stays : entry.fresh now = true := decide_eq_true recent
  exact ⟨entry, by simp [held, stays], seen⟩

theorem Keeps.idle {after : MatchManager Counter} (inv : after.Inv) (own : after.matchAgent.id = id)
    (names : after.Names named) (idle : after.matchAgent.state = .idle) :
    Keeps id named polled after where
  inv := inv
  own := own
  names := names
  entry _ serves := absurd (idle.symm.trans serves.1) (by decide)
  acted serving := absurd (idle.symm.trans serving) (by decide)

theorem Keeps.searched {after : MatchManager Counter} {env : Env Counter} (inv : after.Inv)
    (own : after.matchAgent.id = id) (names : after.Names named)
    (clocked : Clocked after (env.clock 1) (env.clock 2)) (onTime : OnTime polled env)
    (held : ∀ matchId, after.Serves matchId →
      ∃ entry, after.matchMap.lookup matchId = some entry) :
    Keeps id named polled after where
  inv := inv
  own := own
  names := names
  entry matchId serves := by
    obtain ⟨entry, isHeld⟩ := held matchId serves
    obtain rfl := inv.keyed matchId entry isHeld
    refine ⟨entry, isHeld, ?_⟩
    rw [clocked.acted (by simp [serves.1]), clocked.seen entry serves isHeld]
    exact onTime.ordered 1 2 (by decide)
  acted serving := by
    have later := onTime.later 1
    rw [clocked.acted (by simp [serving])]
    simp only [servingRebroadcastTimeout]
    omega

-- An event that leaves the agent as it is.
theorem Keeps.kept {after : MatchManager Counter} {polled' : Int}
    (keeps : Keeps id named polled manager) (inv : after.Inv) (names : after.Names named)
    (agent : after.matchAgent = manager.matchAgent)
    (acted : manager.matchAgent.state = .servingWaitingClaims →
      polled' - manager.matchAgent.lastActionStart ≤ servingRebroadcastTimeout)
    (entry : ∀ matchId, manager.Serves matchId → ∃ entry,
      after.matchMap.lookup matchId = some entry ∧
        manager.matchAgent.lastActionStart ≤ entry.lastSeen) :
    Keeps id named polled' after where
  inv := inv
  own := agent ▸ keeps.own
  names := names
  entry matchId serves := by
    rw [MatchManager.Serves, agent] at serves
    rw [agent]
    exact entry matchId serves
  acted serving := by
    rw [agent] at serving ⊢
    exact acted serving

theorem Keeps.step (distinct : Distinct named) (keeps : Keeps id named polled manager)
    (input : Input Counter) (honest : input.event.Honest id named)
    (named_by : ∀ advertiser match_, input.event.Names id advertiser match_ →
      named advertiser match_)
    (onTime : OnTime (input.event.polled polled) input.env)
    (calm : input.event = .stopMatch → manager.matchAgent.state = .servingWaitingClaims →
      input.env.callbackThrows 0 = false) :
    Keeps id named (input.event.polled polled) (manager.react input).1 := by
  obtain ⟨env, event, clean⟩ := input
  simp only [MatchManager.react] at *
  have effect := handle_effect env clean manager keeps.inv event
  simp only at effect
  have inv := effect.inv keeps.inv
  have names := effect.names_kept keeps.names (by rw [keeps.own]; exact named_by) keeps.inv
  have clocked := handle_clocked env clean manager keeps.inv event
  rw [← acts_visible] at clocked
  generalize visible (manager.handle env event).2 = actions at effect clocked
  generalize reached : (manager.handle env event).1 = after at effect clocked inv names ⊢
  have own : after.matchAgent.id = id := effect.id_kept.trans keeps.own
  cases effect with
  | quiet event quiet =>
    refine keeps.kept inv names rfl (fun serving => ?_) keeps.entry
    cases event with
    | poll time =>
      simpa [MatchManager.Quiet, MatchManager.RestartDue, serving, Event.polled] using quiet
    | _ => exact keeps.acted serving
  | listening => exact keeps.kept inv names rfl keeps.acted keeps.entry
  | expired time now map fresh =>
    obtain ⟨map', handled, fresh'⟩ := checkTimeouts_handle env clean manager time
    rw [handled] at reached
    obtain rfl : map' = map := congrArg MatchManager.matchMap reached
    refine keeps.kept inv names rfl keeps.acted fun matchId serves => ?_
    rw [show map'.lookup matchId = _ from fresh' matchId]
    exact keeps.entry_fresh serves (onTime.soon 0)
  | advertised msg now =>
    refine keeps.kept inv names rfl keeps.acted fun matchId serves => ?_
    obtain ⟨match_, isNamed, same⟩ := keeps.serves_own serves
    refine keeps.entry_put serves fun equal => ?_
    rw [advertised_matchId keeps.inv.keyed] at equal
    exact honest (distinct _ _ _ _ (named_by _ _ ⟨rfl, rfl⟩) isNamed (equal.symm.trans same)).1
  | withdrawn dropped =>
    exact keeps.kept inv names rfl keeps.acted fun matchId serves =>
      keeps.entry_dropped serves honest
  | claimed entry user counter held first elsewhere =>
    exact keeps.kept inv names rfl keeps.acted fun matchId serves =>
      keeps.entry_put serves fun equal => elsewhere (equal ▸ serves)
  | filled entry user held elsewhere =>
    exact keeps.kept inv names rfl keeps.acted fun matchId serves =>
      keeps.entry_dropped serves honest
  | hosted | joined => exact .idle inv own names rfl
  | passedOver entry user targetMatch callback actions after held joins other targets waiting search =>
    refine .searched inv own names (clocked search.acts) onTime fun matchId serves => ?_
    have keyed : (manager.put (entry.pushAck user)).matchMap.Keyed := keeps.inv.keyed.insert rfl
    obtain ⟨same, found, isFound⟩ := search.serves keyed serves
    -- the match that is passed over is another's, and so not the one that is served
    have differ : matchId ≠ entry.matchId := by
      intro equal
      obtain ⟨advertiser, target, -, isNamed, isOther, joined, -⟩ := keeps.names.joins _ joins
      refine isOther (distinct _ _ _ _ isNamed (keeps.names.targets _ targets) ?_).1
      rw [← joined, ← equal, same]
      rfl
    exact ⟨found, by rw [MatchManager.drop, AList.lookup_erase_ne differ]; exact isFound⟩
  | started targetMatch counter callback actions after idle search =>
    exact .searched inv own names (clocked search.acts) onTime fun matchId serves =>
      (search.serves keeps.inv.keyed serves).2
  | restarted time targetMatch callback actions after due targets waiting search =>
    exact .searched inv own names (clocked search.acts) onTime fun matchId serves =>
      (search.serves keeps.inv.keyed serves).2
  | unadvertised matchId callback throws serves waiting =>
    have agent := manager.stopMatch_agent keeps.inv env clean (by simp [serves.1])
    rw [calm rfl serves.1, reached] at agent
    exact .idle inv own names (by rw [agent]; rfl)
  | stopped callback throws joining waiting =>
    cases throws with
    | false => exact .idle inv own names rfl
    | true => exact keeps.kept inv names rfl keeps.acted keeps.entry

end Step

theorem MatchManager.stopped_unready (manager : MatchManager Counter) (inv : manager.Inv)
    (input : Input Counter) (stops : input.event = .stopMatch)
    (throws : input.env.callbackThrows 0 = true)
    (serving : manager.matchAgent.state = .servingWaitingClaims) :
    ¬(manager.react input).1.Ready := by
  intro ready
  have agent := manager.stopMatch_agent inv input.env input.pristine (by simp [serving])
  have effect := stopMatch_effect input.env input.pristine manager inv
  simp only [throws, if_true, MatchManager.Ready, MatchManager.react, stops] at agent effect ready
  rw [agent] at ready
  obtain ⟨matchId', entry, current', held, -⟩ := ready serving
  generalize (manager.handle input.env .stopMatch).1 = after at effect held
  generalize visible _ = actions at effect
  cases effect with
  | quiet _ quiet => exact absurd (serving.symm.trans quiet) (by decide)
  | stopped callback throws joining waiting => exact absurd (joining.symm.trans serving) (by decide)
  | unadvertised matchId callback throws serves waiting =>
    obtain rfl := Option.some.inj (serves.2.symm.trans current')
    cases throws <;> simp [MatchManager.drop, MatchManager.clear] at held

namespace MatchManager

theorem trace_ready {id : PublicKey} {named : PublicKey → MatchField → Prop}
    (distinct : Distinct named) (inputs : List (Input Counter))
    (named_by : ∀ input ∈ inputs, ∀ advertiser match_, input.event.Names id advertiser match_ →
      named advertiser match_)
    (honest : ∀ input ∈ inputs, input.event.Honest id named) {polled : Int}
    (punctual : Punctual polled inputs) {manager : MatchManager Counter}
    (keeps : Keeps id named polled manager)
    (calm : ∀ moment ∈ react.trace manager inputs, StopThrows moment →
      moment.before.matchAgent.state ≠ .servingWaitingClaims) :
    ∀ moment ∈ react.trace manager inputs, moment.after.Ready := by
  induction inputs generalizing manager polled with
  | nil => simp [Machine.trace]
  | cons input inputs ih =>
    obtain ⟨onTime, later⟩ := punctual
    have next : Keeps id named (input.event.polled polled) (manager.react input).1 := by
      refine keeps.step distinct input (honest input (by simp)) (named_by input (by simp)) onTime
        fun stops serving => Bool.eq_false_iff.mpr fun throws => ?_
      exact calm _ List.mem_cons_self ⟨stops, by simp [serving], throws⟩ serving
    intro moment member
    rcases List.mem_cons.mp member with rfl | rest
    · exact next.ready distinct
    · exact ih (fun input member => named_by input (List.mem_cons_of_mem _ member))
        (fun input member => honest input (List.mem_cons_of_mem _ member)) later next
        (fun moment member => calm moment (List.mem_cons_of_mem _ member)) moment rest

variable [IntCast Counter] (id : PublicKey)

/-- A host that polls often enough, among honest peers, has its own unclaimed entry whenever it
serves, exactly when no callback throws as the host is stopped. -/
theorem host_keeps_entry_iff (created : Int) (inputs : List (Input Counter))
    (distinct : Distinct (Named id inputs))
    (honest : ∀ input ∈ inputs, input.event.Honest id (Named id inputs))
    (punctual : Punctual created inputs) :
    let run := react.trace (MatchManager.new id) inputs
    (∀ moment ∈ run, moment.after.Ready) ↔
      ∀ moment ∈ run, StopThrows moment →
        moment.before.matchAgent.state ≠ .servingWaitingClaims := by
  intro run
  constructor
  · intro ready moment member stop serving
    obtain ⟨-, ⟨before, start⟩, answer⟩ := react.trace_mem member
    have inv : moment.before.Inv := start ▸ run_inv id before
    have reached : moment.after = (moment.before.react moment.input).1 := congrArg Prod.fst answer
    exact moment.before.stopped_unready inv moment.input stop.stops stop.throws serving
      (reached ▸ ready moment member)
  · refine trace_ready distinct inputs
      (fun input member advertiser match_ names => ⟨input, member, names⟩) honest punctual ?_
    exact .idle (new_inv id) rfl (new_names _ id) rfl

theorem host_keeps_entry_iff_rival :
    let inputs : List (Input Int) :=
      [.still 0 (.receive (.advertise ⟨.small 2, .string "go", 1⟩)),
        .still 1 (.findMatch ["chess"] 1 7), .still 5000 (.poll 5000),
        .still 10000 (.poll 10000), .still 15000 (.checkTimeouts 15000)]
    ∀ moment ∈ react.trace (MatchManager.new (.small 1)) inputs, moment.after.Ready := by
  intro inputs
  have distinct : Distinct (Named (.small 1) inputs) := by
    refine .of_two (.small 2) (.small 1) (.string "go") (.string "chess") ?_ (by decide)
    simp [Named, inputs, Input.still, Event.Names, Matcher.advertised]
  have honest : ∀ input ∈ inputs, input.event.Honest (.small 1) (Named (.small 1) inputs) := by
    simp [inputs, Input.still, Event.Honest]
    decide
  have punctual : Punctual 0 inputs := by
    refine ⟨?_, ?_, ?_, ?_, ?_, trivial⟩ <;>
      constructor <;> simp [Input.still, Env.still, Event.polled, pollInterval]
  refine (host_keeps_entry_iff (.small 1) 0 inputs distinct honest punctual).mpr
    fun moment member stop => ?_
  have taken := (react.trace_mem member).1
  have stops := stop.stops
  simp only [inputs, List.mem_cons, List.not_mem_nil, or_false] at taken
  rcases taken with same | same | same | same | same <;>
    rw [same] at stops <;> cases stops

theorem host_loses_entry :
    let inputs : List (Input Int) :=
      [.still 0 (.findMatch ["chess"] 1 7), ⟨.throwing 1, .stopMatch, rfl⟩]
    Distinct (Named (.small 1) inputs) ∧
      (∀ input ∈ inputs, input.event.Honest (.small 1) (Named (.small 1) inputs)) ∧
      Punctual 0 inputs ∧
      ¬∀ moment ∈ react.trace (MatchManager.new (.small 1)) inputs, moment.after.Ready := by
  intro inputs
  refine ⟨?_, ?_, ?_, fun ready => ?_⟩
  · simp only [Distinct, Named, inputs, Input.still, Event.Names, Matcher.advertised, List.mem_cons,
      List.not_mem_nil, or_false, exists_eq_or_imp, exists_eq_left]
    rintro _ _ _ _ ⟨rfl, rfl⟩ ⟨rfl, rfl⟩ -
    exact ⟨rfl, rfl⟩
  · simp [inputs, Input.still, Event.Honest]
  · refine ⟨?_, ?_, trivial⟩ <;>
      constructor <;> simp [Input.still, Env.still, Env.throwing, Event.polled, pollInterval]
  · let stop : Input Int := ⟨.throwing 1, .stopMatch, rfl⟩
    have serving : (react.run (MatchManager.new (.small 1) : MatchManager Int)
        [.still 0 (.findMatch ["chess"] 1 7)]).1.matchAgent.state = .servingWaitingClaims := by
      decide +kernel
    have inv := run_inv (.small 1) [Input.still 0 (.findMatch ["chess"] (1 : Int) 7)]
    rw [show inputs = [.still 0 (.findMatch ["chess"] 1 7)] ++ [stop] from rfl,
      react.trace_append] at ready
    generalize (react.run (MatchManager.new (.small 1) : MatchManager Int)
      [.still 0 (.findMatch ["chess"] 1 7)]).1 = before at ready serving inv
    exact before.stopped_unready inv stop rfl rfl serving
      (ready ⟨(), before, stop, (before.react stop).1, (before.react stop).2⟩
        (List.mem_append_right _ List.mem_cons_self))

end MatchManager

end RoundTable.Matcher
