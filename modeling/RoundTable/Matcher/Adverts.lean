import RoundTable.Matcher.Invariant

set_option autoImplicit false

namespace RoundTable.Matcher

open Script

variable {Counter : Type}

def Output.leaves (matchId : String) (stands : Bool) : Output Counter → Bool
  | .publish (.advertise msg) => stands || getMatchID msg.advertiser msg.match_ = matchId
  | .publish (.unadvertise msg) => stands && msg.matchId ≠ matchId
  | .publish (.ack msg) => stands && msg.matchId ≠ matchId
  | _ => stands

def advertStands (matchId : String) (outputs : List (Output Counter)) : Bool :=
  outputs.foldl (Output.leaves matchId) false

theorem advertStands_append (matchId : String) (outputs actions : List (Output Counter)) :
    advertStands matchId (outputs ++ actions) =
      actions.foldl (Output.leaves matchId) (advertStands matchId outputs) :=
  List.foldl_append ..

theorem foldl_leaves_visible (matchId : String) (stands : Bool)
    (actions : List (Output Counter)) :
    (visible actions).foldl (Output.leaves matchId) stands =
      actions.foldl (Output.leaves matchId) stands := by
  induction actions generalizing stands with
  | nil => rfl
  | cons action actions ih =>
    cases action with
    | listener => exact ih stands
    | publish | callback => exact ih _

def Withdrawn (manager : MatchManager Counter) (outputs : List (Output Counter)) : Prop :=
  ∀ matchId, advertStands matchId outputs = true → manager.Serves matchId

/-- A tick that restarts the search of an agent whose advert stands finds no match to join. -/
def RestartsAlone (manager : MatchManager Counter) (outputs : List (Output Counter))
    (event : Event Counter) : Prop :=
  ∀ time matchId targetMatch, event = .poll time → manager.RestartDue time →
    manager.Serves matchId → advertStands matchId outputs = true →
      manager.matchAgent.targetMatch = some targetMatch →
        manager.matchMap.All fun _ entry =>
          joinable targetMatch manager.matchAgent.id entry = false

theorem Effect.serves_own {manager : MatchManager Counter} (inv : manager.Inv) {matchId : String}
    (serves : manager.Serves matchId) {targetMatch : List String}
    (targets : manager.matchAgent.targetMatch = some targetMatch) :
    matchId = getMatchID manager.matchAgent.id (Matcher.advertised targetMatch) := by
  have consistent := inv.consistent
  simp only [MatchAgent.Consistent, serves.1] at consistent
  obtain ⟨held, callback, searching, current, -⟩ := consistent
  obtain rfl := Option.some.inj (targets.symm.trans searching)
  exact Option.some.inj (serves.2.symm.trans current)

theorem Search.withdrawn {manager after : MatchManager Counter} {targetMatch : List String}
    {counter : Counter} {callback : Callback} {actions outputs : List (Output Counter)}
    (search : Search manager targetMatch counter callback actions after)
    (keyed : manager.matchMap.Keyed)
    (own : ∀ matchId, advertStands matchId outputs = true →
      matchId = getMatchID manager.matchAgent.id (advertised targetMatch) ∧
        manager.matchMap.All fun _ entry =>
          joinable targetMatch manager.matchAgent.id entry = false) :
    Withdrawn after (outputs ++ actions) := by
  intro matchId stands
  rw [advertStands_append] at stands
  cases search with
  | join entry now held open_ =>
    have closed := (own matchId stands).2 _ _ held
    exact absurd (open_.symm.trans closed) (by decide)
  | serve entry now seen closed ownEntry unclaimed =>
    have named : entry.matchId = getMatchID manager.matchAgent.id (advertised targetMatch) := by
      rw [ownEntry, advertised_matchId keyed]
      rfl
    have same : matchId = entry.matchId := by
      rw [named]
      rcases Bool.or_eq_true_iff.mp stands with before | now
      · exact (own matchId before).1
      · exact (of_decide_eq_true now).symm
    exact ⟨rfl, congrArg some same.symm⟩
  | fill entry now seen user claimCounter rest closed ownEntry claims =>
    have named : entry.matchId = getMatchID manager.matchAgent.id (advertised targetMatch) := by
      rw [ownEntry, advertised_matchId keyed]
      rfl
    exfalso
    have other : ¬entry.matchId = matchId ∧ (advertStands matchId outputs = true ∨
        getMatchID manager.matchAgent.id (advertised targetMatch) = matchId) := by
      by_cases seen : user ∈ entry.acksSeen <;>
        simpa [MatchState.acks, seen, Output.leaves, MatchManager.advert, and_comm] using stands
    rcases other.2 with before | now
    · exact other.1 (named.trans (own matchId before).1.symm)
    · exact other.1 (named.trans now)

theorem Effect.keeps_withdrawn {manager after : MatchManager Counter} {event : Event Counter}
    {actions outputs : List (Output Counter)} (effect : Effect manager event actions after)
    (inv : manager.Inv) (withdrawn : Withdrawn manager outputs)
    (alone : RestartsAlone manager outputs event) : Withdrawn after (outputs ++ actions) := by
  -- a manager that serves nothing has no advert standing
  have none (idle : manager.matchAgent.state ≠ .servingWaitingClaims) (matchId : String) :
      advertStands matchId outputs ≠ true := fun stands => idle (withdrawn matchId stands).1
  cases effect with
  | quiet | listening | expired | advertised | withdrawn | claimed | filled =>
    rw [List.append_nil]
    exact withdrawn
  | hosted entry user counter callback held first serves waiting =>
    intro matchId stands
    rw [advertStands_append] at stands
    have other : advertStands matchId outputs = true ∧ entry.matchId ≠ matchId := by
      simpa [Output.leaves] using stands
    have served := (withdrawn matchId other.1).2
    rw [serves.2] at served
    exact absurd (Option.some.inj served) other.2
  | joined entry callback held joins waiting =>
    intro matchId stands
    rw [advertStands_append] at stands
    exact absurd stands (none (by simp [joins.1]) matchId)
  | passedOver entry user targetMatch callback actions after held joins other targets waiting search =>
    have keyed : (manager.put (entry.pushAck user)).matchMap.Keyed := inv.keyed.insert rfl
    exact search.withdrawn keyed fun matchId stands =>
      absurd stands (none (by simp [joins.1]) matchId)
  | started targetMatch counter callback actions after idle search =>
    exact search.withdrawn inv.keyed fun matchId stands =>
      absurd stands (none (by simp [idle]) matchId)
  | restarted time targetMatch callback actions after due targets waiting search =>
    refine search.withdrawn inv.keyed fun matchId stands => ?_
    have serves := withdrawn matchId stands
    exact ⟨Effect.serves_own inv serves targets,
      alone time matchId targetMatch rfl due serves stands targets⟩
  | unadvertised matchId' callback throws serves waiting =>
    intro matchId stands
    rw [advertStands_append] at stands
    have other : advertStands matchId outputs = true ∧ matchId' ≠ matchId := by
      simpa [Output.leaves] using stands
    have served := (withdrawn matchId other.1).2
    rw [serves.2] at served
    exact absurd (Option.some.inj served) other.2
  | stopped callback throws joining waiting =>
    intro matchId stands
    rw [advertStands_append] at stands
    exact absurd stands (none (by simp [joining]) matchId)

theorem Effect.left_standing {manager after : MatchManager Counter} {event : Event Counter}
    {actions outputs : List (Output Counter)} (effect : Effect manager event actions after)
    (withdrawn : Withdrawn after (outputs ++ actions)) : RestartsAlone manager outputs event := by
  rintro time matchId targetMatch rfl due serves stands targets key entry held
  cases effect with
  | quiet _ quiet => exact absurd due quiet
  | restarted time targetMatch' callback actions after due targets' waiting search =>
    obtain rfl := Option.some.inj (targets.symm.trans targets')
    cases search with
    | join joined now isHeld open_ =>
      have left : advertStands matchId
          (outputs ++ [.publish (.claim ⟨joined.matchId, manager.matchAgent.id,
            manager.matchAgent.counter⟩)]) = true := by
        rw [advertStands_append]
        exact stands
      exact absurd (withdrawn matchId left).1 (by simp [MatchManager.joining])
    | serve _ _ _ closed | fill _ _ _ _ _ _ closed => exact closed key entry held

namespace MatchManager

variable [IntCast Counter] (id : PublicKey)

/-- The adverts of a manager are withdrawn all along a run exactly when no restart of the run joins
another match while an advert stands. -/
theorem adverts_withdrawn_iff (inputs : List (Input Counter)) :
    let run := react.run (MatchManager.new id)
    (∀ before, before <+: inputs → Withdrawn (run before).1 (run before).2) ↔
      ∀ before input, before ++ [input] <+: inputs →
        RestartsAlone (run before).1 (run before).2 input.event := by
  intro run
  have stepped (before : List (Input Counter)) (input : Input Counter) :
      Effect (run before).1 input.event (visible (react (run before).1 input).2)
        (run (before ++ [input])).1 := by
    simp only [run, Reactive.Machine.run_snoc]
    exact react_effect _ (run_inv id before) input
  have outputs (before : List (Input Counter)) (input : Input Counter) (matchId : String) :
      advertStands matchId (run (before ++ [input])).2 =
        advertStands matchId ((run before).2 ++ visible (react (run before).1 input).2) := by
    simp only [run, Reactive.Machine.run_snoc, advertStands_append, foldl_leaves_visible]
  constructor
  · intro withdrawn before input fits
    refine (stepped before input).left_standing fun matchId stands => ?_
    exact withdrawn _ fits matchId ((outputs before input matchId).trans stands)
  · intro alone before
    induction before using List.reverseRecOn with
    | nil => exact fun _ matchId stands => by cases stands
    | append_singleton before input ih =>
      intro fits matchId stands
      have reached := ih ((List.prefix_append ..).trans fits)
      refine (stepped before input).keeps_withdrawn (run_inv id before) reached
        (alone before input fits) matchId ?_
      exact (outputs before input matchId).symm.trans stands

theorem advert_left_standing :
    let host : PublicKey := .small 1
    let other : PublicKey := .small 2
    let reached := react.run (MatchManager.new host : MatchManager Int)
      [.still 0 (.findMatch ["chess"] 1 0),
        .still 5000 (.receive (.advertise ⟨other, .string "chess", 1⟩)),
        .still 10001 (.poll 10001)]
    advertStands (getMatchID host (.string "chess")) reached.2 = true ∧
      reached.1.matchAgent.state = .joiningWaitingAck ∧ ¬Withdrawn reached.1 reached.2 := by
  intro host other reached
  have stands : advertStands (getMatchID host (.string "chess")) reached.2 = true := by decide +kernel
  have joining : reached.1.matchAgent.state = .joiningWaitingAck := by decide +kernel
  refine ⟨stands, joining, fun withdrawn => ?_⟩
  exact absurd (joining.symm.trans (withdrawn _ stands).1) (by decide)

end MatchManager

end RoundTable.Matcher
