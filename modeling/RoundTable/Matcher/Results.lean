import RoundTable.Matcher.Acks
import RoundTable.Matcher.Naming

set_option autoImplicit false

namespace RoundTable.Matcher

open Reactive

variable {Counter : Type}

structure SearchLife (targetMatch : List String) (counter : Counter)
    (moments : List (Moment Counter)) : Prop where
  one : OneSearch moments
  starts : ∃ first rest callback, moments = first :: rest ∧
    first.before.matchAgent.state = .idle ∧
      first.input.event = .findMatch targetMatch counter callback

/-- The match is a target. It is the first target and the agent's own, acknowledged in this search
to the first who claimed it, or it is another's, claimed in this search and acknowledged to the
agent first. -/
def ResultSound (id : PublicKey) (targetMatch : List String) (life : List (Moment Counter))
    (result : MatchState Counter) : Prop :=
  ∃ target ∈ targetMatch, result.match_ = .string target ∧
    ((result.advertiser = id ∧ targetMatch.head? = some target ∧
        ∃ claim, result.claimsSeen.head? = some claim ∧
          ∃ moment ∈ life, .publish (.ack ⟨result.matchId, claim.1⟩) ∈ moment.outputs) ∨
      (result.advertiser ≠ id ∧ result.acksSeen.head? = some id ∧
        ∃ moment ∈ life, ∃ counter,
          .publish (.claim ⟨result.matchId, id, counter⟩) ∈ moment.outputs))

section Step

variable {manager after : MatchManager Counter} {event : Event Counter}
variable {actions : List (Output Counter)}

-- The search for `targetMatch` with `counter` is under way, or called for.
def Pursues (manager : MatchManager Counter) (event : Event Counter)
    (targetMatch : List String) (counter : Counter) : Prop :=
  (manager.matchAgent.state ≠ .idle ∧ manager.matchAgent.targetMatch = some targetMatch ∧
      manager.matchAgent.counter = counter) ∨
    (manager.matchAgent.state = .idle ∧ ∃ callback,
      event = .findMatch targetMatch counter callback)

theorem Search.waits_for {targetMatch : List String} {counter : Counter} {callback : Callback}
    (search : Search manager targetMatch counter callback actions after)
    (busy : after.matchAgent.state ≠ .idle) :
    after.matchAgent.targetMatch = some targetMatch ∧ after.matchAgent.counter = counter ∧
      ∀ matchId, after.Joins matchId →
        .publish (.claim ⟨matchId, manager.matchAgent.id, counter⟩) ∈ actions := by
  cases search with
  | join entry now held open_ =>
    refine ⟨rfl, rfl, fun matchId joins => ?_⟩
    obtain rfl : entry.matchId = matchId := Option.some.inj joins.2
    exact List.mem_singleton_self _
  | serve => exact ⟨rfl, rfl, fun matchId joins => by cases joins.1⟩
  | fill => exact absurd rfl busy

structure CompletesFor (id : PublicKey) (targetMatch : List String) (agent : MatchAgent Counter)
    (result : MatchState Counter) : Prop where
  own : agent.id = id
  targets : agent.targetMatch = some targetMatch
  hosted : agent.state = .servingWaitingClaims →
    agent.matchId = some (getMatchID id (advertised targetMatch))
  joined : agent.state = .joiningWaitingAck → result.acksSeen = [id]

theorem Search.completes_for {targetMatch : List String} {counter : Counter} {callback : Callback}
    (search : Search manager targetMatch counter callback actions after)
    (keyed : manager.matchMap.Keyed) {agent : MatchAgent Counter} {result : MatchState Counter}
    (completes : Completes actions agent result) :
    CompletesFor manager.matchAgent.id targetMatch agent result ∧ agent.counter = counter := by
  obtain ⟨callback', called⟩ := completes
  cases search with
  | join | serve => simp at called
  | fill entry now seen user claimCounter rest closed own claims =>
    obtain ⟨rfl, -, -⟩ := callback_mem_fill.mp called
    have named := advertised_matchId keyed (manager.advert targetMatch counter) seen
    rw [← own] at named
    exact ⟨⟨rfl, rfl, fun _ => congrArg some named, fun joining => by cases joining⟩, rfl⟩

variable (effect : Effect manager event actions after) (inv : manager.Inv)

include effect inv

-- A search that waits after an event is the one before it, or has just started.
theorem Effect.waits_for (busy : after.matchAgent.state ≠ .idle) :
    ∃ targetMatch, after.matchAgent.targetMatch = some targetMatch ∧
      Pursues manager event targetMatch after.matchAgent.counter ∧ ∀ matchId, after.Joins matchId →
        manager.Joins matchId ∨
          ∃ counter, .publish (.claim ⟨matchId, manager.matchAgent.id, counter⟩) ∈ actions := by
  have unmoved (same : after.matchAgent = manager.matchAgent) :
      ∃ targetMatch, after.matchAgent.targetMatch = some targetMatch ∧
        Pursues manager event targetMatch after.matchAgent.counter ∧
          ∀ matchId, after.Joins matchId → manager.Joins matchId ∨
            ∃ counter, .publish (.claim ⟨matchId, manager.matchAgent.id, counter⟩) ∈ actions := by
    rw [same] at busy
    obtain ⟨targetMatch, -, -, targets, -⟩ := inv.consistent.waits busy
    exact ⟨targetMatch, same ▸ targets, .inl ⟨busy, targets, by rw [same]⟩, fun _ joins =>
      .inl (by rwa [MatchManager.Joins, same] at joins)⟩
  cases effect with
  | quiet | listening | expired | advertised | withdrawn | claimed | filled => exact unmoved rfl
  | hosted | joined => exact absurd rfl busy
  | passedOver entry user targetMatch callback actions after held joins other targets waiting search =>
    obtain ⟨kept, counted, claims⟩ := search.waits_for busy
    exact ⟨targetMatch, kept, .inl ⟨by simp [joins.1], targets, counted.symm⟩, fun matchId joins =>
      .inr ⟨_, claims matchId joins⟩⟩
  | started targetMatch counter callback actions after idle search =>
    obtain ⟨kept, counted, claims⟩ := search.waits_for busy
    exact ⟨targetMatch, kept, .inr ⟨idle, callback, by rw [counted]⟩, fun matchId joins =>
      .inr ⟨_, claims matchId joins⟩⟩
  | restarted time targetMatch callback actions after due targets waiting search =>
    obtain ⟨kept, counted, claims⟩ := search.waits_for busy
    exact ⟨targetMatch, kept, .inl ⟨RestartDue.busy due, targets, counted.symm⟩, fun matchId joins =>
      .inr ⟨_, claims matchId joins⟩⟩
  | unadvertised matchId callback throws | stopped callback throws =>
    cases throws
    · exact absurd rfl busy
    · exact unmoved rfl

theorem Effect.completes_for {agent : MatchAgent Counter} {result : MatchState Counter}
    (completes : Completes actions agent result) :
    ∃ targetMatch, Pursues manager event targetMatch agent.counter ∧
      CompletesFor manager.matchAgent.id targetMatch agent result := by
  have completes' := completes
  obtain ⟨callback', called⟩ := completes
  cases effect with
  | quiet | listening | expired | advertised | withdrawn | claimed | filled | unadvertised | stopped =>
    simp at called
  | hosted entry user counter callback held first serves waiting =>
    obtain ⟨rfl, -, -⟩ := callback_mem_hosted.mp called
    have consistent := inv.consistent
    simp only [MatchAgent.Consistent, serves.1] at consistent
    obtain ⟨targetMatch, _, targets, current, -⟩ := consistent
    exact ⟨targetMatch, .inl ⟨by simp [serves.1], targets, rfl⟩, rfl, targets, fun _ => current,
      fun joining => absurd (serves.1.symm.trans joining) (by decide)⟩
  | joined entry callback held joins waiting =>
    obtain ⟨rfl, -, rfl⟩ := callback_mem_joined.mp called
    obtain ⟨targetMatch, -, -, targets, -⟩ := inv.consistent.waits (by simp [joins.1])
    refine ⟨targetMatch, .inl ⟨by simp [joins.1], targets, rfl⟩, rfl, targets, fun serving =>
      absurd (joins.1.symm.trans serving) (by decide), fun _ => ?_⟩
    rw [pushAck_acksSeen, inv.unacked _ _ held, List.nil_append]
  | passedOver entry user targetMatch callback actions after held joins other targets waiting search =>
    obtain ⟨for_, counted⟩ := search.completes_for (inv.keyed.insert rfl) completes'
    exact ⟨targetMatch, .inl ⟨by simp [joins.1], targets, counted.symm⟩, for_⟩
  | started targetMatch counter callback actions after idle search =>
    obtain ⟨for_, counted⟩ := search.completes_for inv.keyed completes'
    exact ⟨targetMatch, .inr ⟨idle, callback, by rw [counted]⟩, for_⟩
  | restarted time targetMatch callback actions after due targets waiting search =>
    obtain ⟨for_, counted⟩ := search.completes_for inv.keyed completes'
    exact ⟨targetMatch, .inl ⟨RestartDue.busy due, targets, counted.symm⟩, for_⟩

end Step

def Follows (id : PublicKey) (manager : MatchManager Counter) (moments : List (Moment Counter)) :
    Prop :=
  manager.matchAgent.state ≠ .idle → ∃ earlier life targetMatch, moments = earlier ++ life ∧
    SearchLife targetMatch manager.matchAgent.counter life ∧
      manager.matchAgent.targetMatch = some targetMatch ∧
        ∀ matchId, manager.Joins matchId → ∃ moment ∈ life, ∃ counter,
          .publish (.claim ⟨matchId, id, counter⟩) ∈ moment.outputs

section Life

variable {id : PublicKey} {moments : List (Moment Counter)} {moment : Moment Counter}
variable {targetMatch : List String} {counter : Counter}

theorem SearchLife.next {life : List (Moment Counter)}
    (search : SearchLife targetMatch counter life)
    (busy : moment.before.matchAgent.state ≠ .idle) :
    SearchLife targetMatch counter (life ++ [moment]) := by
  obtain ⟨first, rest, callback, rfl, idle, starts⟩ := search.starts
  refine ⟨fun later member => ?_, first, rest ++ [moment], callback, rfl, idle, starts⟩
  rcases List.mem_append.mp member with inside | last
  · exact search.one later inside
  · exact List.mem_singleton.mp last ▸ busy

theorem Follows.pursued (follows : Follows id moment.before moments)
    (pursues : Pursues moment.before moment.input.event targetMatch counter) :
    ∃ earlier life, moments = earlier ++ life ∧ SearchLife targetMatch counter (life ++ [moment]) ∧
      ∀ matchId, moment.before.Joins matchId → ∃ moment ∈ life, ∃ counter,
        .publish (.claim ⟨matchId, id, counter⟩) ∈ moment.outputs := by
  rcases pursues with ⟨busy, targets, rfl⟩ | ⟨idle, callback, starts⟩
  · obtain ⟨earlier, life, targetMatch', split, search, targets', claimed⟩ := follows busy
    obtain rfl := Option.some.inj (targets.symm.trans targets')
    exact ⟨earlier, life, split, search.next busy, claimed⟩
  · refine ⟨moments, [], (List.append_nil _).symm, ⟨?_, moment, [], callback, rfl, idle, starts⟩,
      fun matchId joins => absurd (idle.symm.trans joins.1) (by decide)⟩
    exact fun later member => absurd member List.not_mem_nil

theorem Follows.step (follows : Follows id moment.before moments) (inv : moment.before.Inv)
    (own : moment.before.matchAgent.id = id)
    (effect : Effect moment.before moment.input.event (visible moment.outputs) moment.after) :
    Follows id moment.after (moments ++ [moment]) := by
  intro busy
  obtain ⟨targetMatch, targets, pursues, claims⟩ := effect.waits_for inv busy
  obtain ⟨earlier, life, rfl, search, claimed⟩ := follows.pursued pursues
  refine ⟨earlier, life ++ [moment], targetMatch, List.append_assoc .., search, targets,
    fun matchId joins => ?_⟩
  rcases claims matchId joins with before | ⟨counter, published⟩
  · obtain ⟨other, member, counter, published⟩ := claimed matchId before
    exact ⟨other, List.mem_append_left _ member, counter, published⟩
  · exact ⟨moment, List.mem_append_right _ (List.mem_singleton_self _), counter,
      own ▸ mem_visible_publish.mp published⟩

end Life

section Sound

variable {id : PublicKey} {named : PublicKey → MatchField → Prop} {manager : MatchManager Counter}
variable {event : Event Counter} {targetMatch : List String} {counter : Counter}
variable {actions : List (Output Counter)} {agent : MatchAgent Counter} {result : MatchState Counter}

theorem Pursues.named_own (pursues : Pursues manager event targetMatch counter)
    (names : manager.Names named)
    (named_by : ∀ advertiser match_, event.Names manager.matchAgent.id advertiser match_ →
      named advertiser match_) : named manager.matchAgent.id (advertised targetMatch) := by
  rcases pursues with ⟨-, targets, -⟩ | ⟨-, callback, rfl⟩
  · exact names.targets _ targets
  · exact named_by _ _ ⟨rfl, rfl⟩

theorem Hosting.own_match {claim : PublicKey × Counter}
    (hosting : Hosting manager event actions agent result claim) (distinct : Distinct named)
    (inv : manager.Inv) (names : manager.Names named)
    (isNamed : named manager.matchAgent.id (advertised targetMatch))
    (for_ : CompletesFor manager.matchAgent.id targetMatch agent result) :
    result.advertiser = manager.matchAgent.id ∧ result.match_ = advertised targetMatch := by
  obtain ⟨entry, held, advertiser, game, -⟩ := hosting.held
  have current := Option.some.inj (hosting.current.symm.trans (for_.hosted hosting.serving))
  obtain ⟨owns, offers⟩ := distinct.same inv names held isNamed current
  exact ⟨advertiser ▸ owns, game ▸ offers⟩

theorem Joining.target_match (joining : Joining manager event agent result)
    (distinct : Distinct named) (inv : manager.Inv) (names : manager.Names named)
    (for_ : CompletesFor manager.matchAgent.id targetMatch agent result) :
    result.advertiser ≠ manager.matchAgent.id ∧
      ∃ target ∈ targetMatch, result.match_ = .string target := by
  obtain ⟨entry, held, advertiser, game⟩ := joining.held
  obtain ⟨host, target, targetMatch', isNamed, other, current, targets, member⟩ :=
    names.joins _ joining.joins
  have sought := for_.targets
  rw [joining.same] at sought
  obtain rfl := Option.some.inj (sought.symm.trans targets)
  obtain ⟨owns, offers⟩ := distinct.same inv names held isNamed current
  exact ⟨fun same => other (owns.symm.trans (advertiser.trans same)), target, member, game ▸ offers⟩

end Sound

namespace MatchManager

variable [IntCast Counter] (id : PublicKey)

theorem run_names {named : PublicKey → MatchField → Prop} (inputs : List (Input Counter))
    (named_by : ∀ input ∈ inputs, ∀ advertiser match_, input.event.Names id advertiser match_ →
      named advertiser match_) : (react.run (MatchManager.new id) inputs).1.Names named := by
  refine (react.run_invariant (fun manager _ => (manager.Inv ∧ manager.matchAgent.id = id) ∧
    manager.Names named) _ inputs ⟨⟨new_inv id, rfl⟩, new_names _ id⟩
    fun manager _ input member kept => ?_).2
  obtain ⟨⟨inv, own⟩, names⟩ := kept
  have effect := manager.react_effect inv input
  exact ⟨⟨effect.inv inv, effect.id_kept.trans own⟩,
    effect.names_kept names (own ▸ named_by input member) inv⟩

theorem run_follows (inputs : List (Input Counter)) :
    Follows id (react.run (MatchManager.new id) inputs).1
      (react.trace (MatchManager.new id) inputs) := by
  refine (react.trace_steps (fun manager moments => (manager.Inv ∧ manager.matchAgent.id = id) ∧
    Follows id manager moments) _ inputs ⟨⟨new_inv id, rfl⟩, fun busy => absurd rfl busy⟩
    fun moment member answer moments kept => ?_).2
  obtain ⟨⟨inv, own⟩, follows⟩ := kept
  have effect := moment.before.react_effect inv moment.input
  rw [← answer] at effect
  exact ⟨⟨effect.inv inv, effect.id_kept.trans own⟩, follows.step inv own effect⟩

section Completed

variable (inputs : List (Input Counter)) {earlier later : List (Moment Counter)}
variable {last : Moment Counter}
variable (split : react.trace (MatchManager.new id) inputs = earlier ++ last :: later)
variable {agent : MatchAgent Counter} {result : MatchState Counter}
variable (completes : Completes last.outputs agent result)

include split completes

theorem run_completed :
    ∃ before life targetMatch, earlier = before ++ life ∧
      SearchLife targetMatch agent.counter (life ++ [last]) ∧
        Pursues last.before last.input.event targetMatch agent.counter ∧
          CompletesFor id targetMatch agent result ∧
            ∀ matchId, last.before.Joins matchId → ∃ moment ∈ life, ∃ counter,
              .publish (.claim ⟨matchId, id, counter⟩) ∈ moment.outputs := by
  obtain ⟨inv, effect⟩ := trace_effects id inputs (split ▸ by simp : last ∈ _)
  obtain ⟨past, -, -, rfl, start, -⟩ := react.trace_split split
  have own : last.before.matchAgent.id = id := start ▸ run_id id past
  have follows : Follows id last.before _ := start ▸ run_follows id past
  obtain ⟨targetMatch, pursues, for_⟩ := effect.completes_for inv (completes_visible.mpr completes)
  obtain ⟨before, life, whole, search, claimed⟩ := follows.pursued pursues
  exact ⟨before, life, targetMatch, whole, search, pursues, own ▸ for_, claimed⟩

/-- Whatever the network delivers, a result belongs to one search, and is sound for its targets
exactly when the search has targets. -/
theorem result_sound_iff (distinct : Distinct (Named id inputs)) :
    ∃ before life targetMatch, earlier = before ++ life ∧ agent.targetMatch = some targetMatch ∧
      SearchLife targetMatch agent.counter (life ++ [last]) ∧
      (ResultSound id targetMatch (life ++ [last]) result ↔ targetMatch ≠ []) := by
  have member : last ∈ react.trace (MatchManager.new id) inputs := by simp [split]
  obtain ⟨inv, effect⟩ := trace_effects id inputs member
  obtain ⟨past, rest, same, -, start, -⟩ := react.trace_split split
  have own : last.before.matchAgent.id = id := start ▸ run_id id past
  have names : last.before.Names (Named id inputs) := start ▸ run_names id past
    fun input member _ _ names => ⟨input, same ▸ List.mem_append_left _ member, names⟩
  obtain ⟨before, life, targetMatch, whole, search, pursues, for_, claimed⟩ :=
    run_completed id inputs split completes
  refine ⟨before, life, targetMatch, whole, for_.targets, search, ?_, fun nonempty => ?_⟩
  · rintro ⟨target, member, -⟩ rfl
    exact absurd member List.not_mem_nil
  rw [← own] at for_
  rcases effect.completes inv (completes_visible.mpr completes) with ⟨claim, hosting⟩ | joining
  · obtain ⟨target, others, rfl⟩ := List.exists_cons_of_ne_nil nonempty
    have isNamed := pursues.named_own names fun _ _ names =>
      ⟨last.input, (react.trace_mem member).1, own ▸ names⟩
    obtain ⟨advertiser, game⟩ := hosting.own_match distinct inv names isNamed for_
    exact ⟨target, List.mem_cons_self, game, .inl ⟨advertiser.trans own, rfl, claim, hosting.first,
      last, by simp, mem_visible_publish.mp hosting.acked⟩⟩
  · obtain ⟨other, target, isTarget, game⟩ := joining.target_match distinct inv names for_
    obtain ⟨moment, isEarlier, counter, published⟩ := claimed _ joining.joins
    have acked := for_.joined (joining.same ▸ joining.joins.1)
    rw [own] at other acked
    exact ⟨target, isTarget, game, .inr ⟨other, by rw [acked]; rfl, moment,
      List.mem_append_left _ isEarlier, counter, published⟩⟩

end Completed

theorem result_sound_iff_joined :
    let matchId := getMatchID (.small 2) (.string "chess")
    let run := react.trace (MatchManager.new (.small 1) : MatchManager Int)
      [.still 0 (.receive (.advertise ⟨.small 2, .string "chess", 1⟩)),
        .still 1 (.findMatch ["chess"] 1 7), .still 2 (.receive (.ack ⟨matchId, .small 1⟩))]
    ∃ life, SearchLife ["chess"] (1 : Int) (life ++ [run[2]]) ∧
      ResultSound (.small 1) ["chess"] (life ++ [run[2]])
        ⟨.small 2, 1, .string "chess", matchId, 0, [(.small 1, 1)], [.small 1]⟩ := by
  intro matchId run
  let agent : MatchAgent Int :=
    ⟨.small 1, .joiningWaitingAck, 1, 1, some ["chess"], some matchId, some 7⟩
  have distinct : Distinct (Named (.small 1)
      [.still 0 (.receive (.advertise ⟨.small 2, .string "chess", (1 : Int)⟩)),
        .still 1 (.findMatch ["chess"] 1 7), .still 2 (.receive (.ack ⟨matchId, .small 1⟩))]) := by
    refine .of_two (.small 2) (.small 1) (.string "chess") (.string "chess") ?_ (by decide)
    simp [Named, Input.still, Event.Names, Matcher.advertised]
  have split : run = run.take 2 ++ run[2] :: [] := rfl
  have completes : Completes run[2].outputs agent
      ⟨.small 2, 1, .string "chess", matchId, 0, [(.small 1, 1)], [.small 1]⟩ :=
    ⟨7, by decide +kernel⟩
  obtain ⟨-, life, targetMatch, -, targets, search, sound⟩ :=
    result_sound_iff (.small 1) _ split completes distinct
  obtain rfl : targetMatch = ["chess"] := (Option.some.inj targets).symm
  exact ⟨life, search, sound.mpr (by simp)⟩

theorem result_without_target :
    let matchId := getMatchID (.small 1) (.other "undefined")
    let inputs : List (Input Int) :=
      [.still 0 (.findMatch [] 1 7), .still 1 (.receive (.claim ⟨matchId, .small 2, 1⟩))]
    let run := react.trace (MatchManager.new (.small 1)) inputs
    Distinct (Named (.small 1) inputs) ∧ ∃ agent result, Completes run[1].outputs agent result ∧
      agent.targetMatch = some [] ∧ result.match_ = .other "undefined" ∧
        ∀ life, ¬ResultSound (.small 1) [] life result := by
  intro matchId inputs run
  refine ⟨?_, ⟨.small 1, .servingWaitingClaims, 1, 0, some [], some matchId, some 7⟩,
    ⟨.small 1, 1, .other "undefined", matchId, 0, [(.small 2, 1)], [.small 2]⟩,
    ⟨7, by decide +kernel⟩, rfl, rfl, ?_⟩
  · simp only [Distinct, Named, inputs, Input.still, Event.Names, Matcher.advertised, List.mem_cons,
      List.not_mem_nil, or_false, exists_eq_or_imp, exists_eq_left]
    rintro _ _ _ _ ⟨rfl, rfl⟩ ⟨rfl, rfl⟩ -
    exact ⟨rfl, rfl⟩
  · rintro life ⟨target, member, -⟩
    exact absurd member List.not_mem_nil

end MatchManager

end RoundTable.Matcher
