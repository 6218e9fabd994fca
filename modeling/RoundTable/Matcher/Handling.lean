import RoundTable.Matcher.Effects

set_option autoImplicit false

namespace RoundTable.Matcher

open Script

variable {Counter : Type}

theorem setMap_erase (matchId : String) (turn : Turn Counter) :
    (turn.setMap (·.erase matchId)).manager = turn.manager.drop matchId := rfl

theorem complete_manager (matchState : MatchState Counter) (turn : Turn Counter) :
    (turn.complete matchState).manager = (turn.manager.drop matchState.matchId).clear := by
  unfold Turn.complete Turn.callback
  cases h : (turn.setMap (·.erase matchState.matchId)).manager.matchAgent.matchCallback <;> rfl

theorem complete_visible (matchState : MatchState Counter) (turn : Turn Counter)
    (callback : Callback) (waiting : turn.manager.matchAgent.matchCallback = some callback) :
    visible (turn.complete matchState).outputs =
      visible turn.outputs ++ [.callback turn.manager.matchAgent callback (some matchState)] := by
  simp [Turn.complete, Turn.callback, waiting, Turn.clearState]

theorem acknowledge_manager (matchState : MatchState Counter) (user : PublicKey)
    (turn : Turn Counter) :
    (turn.acknowledge matchState user).manager =
      (turn.manager.drop matchState.matchId).clear := by
  by_cases seen : user ∈ matchState.acksSeen <;>
    simp [Turn.acknowledge, seen, complete_manager]

theorem acknowledge_visible (matchState : MatchState Counter) (user : PublicKey)
    (turn : Turn Counter) (callback : Callback)
    (waiting : turn.manager.matchAgent.matchCallback = some callback) :
    visible (turn.acknowledge matchState user).outputs =
      visible turn.outputs ++ matchState.acks user ++
        [.callback turn.manager.matchAgent callback (some (matchState.acknowledged user))] := by
  by_cases seen : user ∈ matchState.acksSeen <;>
    simp [Turn.acknowledge, seen, MatchState.acks, MatchState.acknowledged,
      complete_visible _ _ callback, waiting]

def MatchManager.Answers (manager : MatchManager Counter) (matchState : MatchState Counter) : Prop :=
  manager.matchAgent.matchId = some matchState.matchId ∧
    match manager.matchAgent.state with
    | .idle => False
    | .servingWaitingClaims => matchState.claimsSeen ≠ []
    | .joiningWaitingAck => matchState.acksSeen ≠ []

-- An agent has put its own entry, and its update is about to be raised.
def Turn.advertising (env : Env Counter) (targetMatch : List String) (counter : Counter)
    (callback : Callback) (turn : Turn Counter) : Turn Counter :=
  let advert := turn.manager.advert targetMatch counter
  { manager := turn.manager.serving targetMatch counter callback (env.clock (turn.queries + 1))
      (turn.manager.matchMap.advertised advert (env.clock (turn.queries + 2)))
    queries := turn.queries + 3
    outputs := turn.outputs ++ [.publish (.advertise advert)] }

def Turn.putting (manager : MatchManager Counter) (entry : MatchState Counter) : Turn Counter :=
  Turn.setMap (·.insert entry.matchId entry) ⟨manager, 0, []⟩

section Update

variable (env : Env Counter) (clean : env.realm = .pristine) (depth : Nat)

include clean

theorem update_quiet (matchState : MatchState Counter) (turn : Turn Counter)
    (quiet : ¬turn.manager.Answers matchState) :
    turn.update env (depth + 1) (some matchState) = turn := by
  rw [update_some env clean]
  split
  next => rfl
  next current =>
    simp only [MatchManager.Answers, not_and, not_not] at quiet current
    cases state : turn.manager.matchAgent.state with
    | idle => rfl
    | servingWaitingClaims =>
      have unclaimed := quiet current
      simp only [state, not_not] at unclaimed
      simp [unclaimed]
    | joiningWaitingAck =>
      have unacked := quiet current
      simp only [state, not_not] at unacked
      simp [unacked]

omit clean in
theorem raise_quiet (matchState : MatchState Counter) (turn : Turn Counter) (key : String)
    (held : turn.manager.matchMap.lookup key = some matchState)
    (quiet : turn.update env (depth + 1) (some matchState) = turn) :
    (turn.raise (Turn.update env (depth + 1)) key).manager = turn.manager ∧
      visible (turn.raise (Turn.update env (depth + 1)) key).outputs = visible turn.outputs := by
  simp [Turn.raise, held, quiet]

theorem handleClaim_quiet (entry : MatchState Counter) (user : PublicKey) (counter : Counter)
    (turn : Turn Counter) (held : turn.manager.matchMap.lookup entry.matchId = some entry)
    (quiet : ¬turn.manager.Answers (entry.pushClaim user counter)) :
    let after := turn.handleClaim (Turn.update env (depth + 1)) ⟨entry.matchId, user, counter⟩
    after.manager =
        (if entry.claimsSeen.any (fun claim => claim.1 = user) then turn.manager
          else turn.manager.put (entry.pushClaim user counter)) ∧
      visible after.outputs = visible turn.outputs := by
  simp only [Turn.handleClaim, held]
  by_cases seen : entry.claimsSeen.any (fun claim => claim.1 = user)
  · simp only [seen, if_true, and_self]
  · simp only [seen, Bool.false_eq_true, if_false]
    exact raise_quiet env depth (entry.pushClaim user counter)
      (turn.setMap (·.insert entry.matchId (entry.pushClaim user counter))) entry.matchId
      (AList.lookup_insert _) (update_quiet env clean depth _ _ quiet)

theorem search_join (targetMatch : List String) (counter : Counter) (callback : Callback)
    (turn : Turn Counter) (entry : MatchState Counter)
    (held : turn.manager.matchMap.lookup entry.matchId = some entry)
    (found : (env.shuffle turn.queries (turn.manager.matchMap.entries.map (·.2))).find?
      (joinable targetMatch turn.manager.matchAgent.id) = some entry) :
    let after := turn.search env (Turn.update env (depth + 1)) targetMatch counter callback
    after.manager = turn.manager.joining targetMatch counter callback
        (env.clock (turn.queries + 1)) entry ∧
      visible after.outputs = visible turn.outputs ++
        [.publish (.claim ⟨entry.matchId, turn.manager.matchAgent.id, counter⟩)] := by
  simp only [Turn.search, found, Turn.sendMessage, Turn.handleMessage]
  generalize claiming : Turn.emit _ _ = claim
  have claimed := handleClaim_quiet env clean depth entry turn.manager.matchAgent.id counter
    claim (by subst claiming; exact held) (by subst claiming; simp [MatchManager.Answers])
  constructor
  · rw [Turn.setAgent, claimed.1]
    subst claiming
    by_cases seen : entry.claimsSeen.any (fun claim => claim.1 = turn.manager.matchAgent.id) <;>
      simp only [seen, if_true, Bool.false_eq_true, if_false, MatchManager.joining] <;> rfl
  · rw [Turn.setAgent_outputs, claimed.2]
    subst claiming
    simp

omit clean in
theorem search_raises (update : Update Counter) (targetMatch : List String) (counter : Counter)
    (callback : Callback) (turn : Turn Counter) (keyed : turn.manager.matchMap.Keyed)
    (none : (env.shuffle turn.queries (turn.manager.matchMap.entries.map (·.2))).find?
      (joinable targetMatch turn.manager.matchAgent.id) = none) :
    turn.search env update targetMatch counter callback =
      (turn.advertising env targetMatch counter callback).raise update
        (getMatchID turn.manager.matchAgent.id (advertised targetMatch)) := by
  have own := advertised_matchId keyed (turn.manager.advert targetMatch counter)
    (env.clock (turn.queries + 2))
  simp only [Turn.search, none, Turn.sendMessage, Turn.handleMessage, Turn.handleAdvertise,
    Turn.advertising, MatchManager.serving, MatchManager.put, own]
  rfl

theorem search_advertise (targetMatch : List String) (counter : Counter) (callback : Callback)
    (turn : Turn Counter) (keyed : turn.manager.matchMap.Keyed)
    (none : (env.shuffle turn.queries (turn.manager.matchMap.entries.map (·.2))).find?
      (joinable targetMatch turn.manager.matchAgent.id) = none) :
    let after := turn.search env (Turn.update env (depth + 2)) targetMatch counter callback
    let advert := turn.manager.advert targetMatch counter
    let entry := turn.manager.matchMap.advertised advert (env.clock (turn.queries + 2))
    let serving := turn.manager.serving targetMatch counter callback
      (env.clock (turn.queries + 1)) entry
    match entry.claimsSeen with
    | [] => after.manager = serving ∧
        visible after.outputs = visible turn.outputs ++ [.publish (.advertise advert)]
    | (user, _) :: _ => after.manager = (serving.drop entry.matchId).clear ∧
        visible after.outputs = visible turn.outputs ++
          (.publish (.advertise advert) :: entry.acks user ++
            [.callback serving.matchAgent callback (some (entry.acknowledged user))]) := by
  intro after advert entry serving
  have own : entry.matchId = getMatchID advert.advertiser advert.match_ :=
    advertised_matchId keyed advert _
  let raised := turn.advertising env targetMatch counter callback
  have reached : after = raised.raise (Turn.update env (depth + 2)) entry.matchId := by
    rw [own]
    exact search_raises env _ targetMatch counter callback turn keyed none
  have held : raised.manager.matchMap.lookup entry.matchId = some entry := AList.lookup_insert _
  rw [reached]
  split
  next unclaimed =>
    have quiet := raise_quiet env (depth + 1) entry raised entry.matchId held
      (update_quiet env clean _ entry raised fun answers => answers.2 unclaimed)
    simpa [raised, Turn.advertising] using quiet
  next user claimCounter rest claims =>
    have acknowledged := update_acknowledge env clean depth raised entry user claimCounter rest held
      rfl rfl claims
    simp only [Turn.raise, held, acknowledged, Turn.tell_manager, acknowledge_manager,
      visible_tell, acknowledge_visible entry user raised callback rfl, raised]
    simp [Turn.advertising, serving, advert, entry]

omit clean in
theorem mem_shuffle (turn : Turn Counter) (entry : MatchState Counter) :
    entry ∈ env.shuffle turn.queries (turn.manager.matchMap.entries.map (·.2)) ↔
      ∃ key, turn.manager.matchMap.lookup key = some entry := by
  rw [(env.shuffle_perm _ _).mem_iff, AList.mem_values]

omit clean in
theorem found_held (targetMatch : List String) (turn : Turn Counter)
    (keyed : turn.manager.matchMap.Keyed) {entry : MatchState Counter}
    (found : (env.shuffle turn.queries (turn.manager.matchMap.entries.map (·.2))).find?
      (joinable targetMatch turn.manager.matchAgent.id) = some entry) :
    turn.manager.matchMap.lookup entry.matchId = some entry := by
  obtain ⟨key, held⟩ := (mem_shuffle env turn entry).mp (List.mem_of_find?_eq_some found)
  exact keyed key entry held ▸ held

theorem search_effect (targetMatch : List String) (counter : Counter) (callback : Callback)
    (turn : Turn Counter) (keyed : turn.manager.matchMap.Keyed) :
    let after := turn.search env (Turn.update env (depth + 2)) targetMatch counter callback
    ∃ actions, Search turn.manager targetMatch counter callback actions after.manager ∧
      visible after.outputs = visible turn.outputs ++ actions := by
  cases found : (env.shuffle turn.queries (turn.manager.matchMap.entries.map (·.2))).find?
      (joinable targetMatch turn.manager.matchAgent.id) with
  | some entry =>
    have held := found_held env targetMatch turn keyed found
    obtain ⟨manager, outputs⟩ := search_join env clean (depth + 1) targetMatch counter callback turn
      entry held found
    refine ⟨_, ?_, outputs⟩
    rw [manager]
    exact .join entry _ held (List.find?_some found)
  | none =>
    have closed (key : String) (held : MatchState Counter)
        (isHeld : turn.manager.matchMap.lookup key = some held) :
        joinable targetMatch turn.manager.matchAgent.id held = false := by
      simpa using List.find?_eq_none.mp found held ((mem_shuffle env turn held).mpr ⟨key, isHeld⟩)
    have advertised := search_advertise env clean depth targetMatch counter callback turn keyed found
    simp only at advertised
    split at advertised
    next unclaimed =>
      refine ⟨_, ?_, advertised.2⟩
      rw [advertised.1]
      exact .serve _ _ _ closed rfl unclaimed
    next user claimCounter rest claims =>
      refine ⟨_, ?_, advertised.2⟩
      rw [advertised.1]
      exact .fill _ _ _ user claimCounter rest closed rfl claims

end Update

section Quiet

variable {manager : MatchManager Counter} (inv : manager.Inv) {entry : MatchState Counter}
variable (held : manager.matchMap.lookup entry.matchId = some entry) (user : PublicKey)

include inv held

theorem ack_quiet (elsewhere : ¬manager.Joins entry.matchId) :
    ¬manager.Answers (entry.pushAck user) := by
  rintro ⟨current, answers⟩
  cases state : manager.matchAgent.state with
  | idle => simp [state] at answers
  | servingWaitingClaims =>
    rw [state] at answers
    exact answers (inv.unclaimed state _ entry held current)
  | joiningWaitingAck => exact elsewhere ⟨state, current⟩

theorem claim_quiet (counter : Counter) (elsewhere : ¬manager.Serves entry.matchId) :
    ¬manager.Answers (entry.pushClaim user counter) := by
  rintro ⟨current, answers⟩
  cases state : manager.matchAgent.state with
  | idle => simp [state] at answers
  | servingWaitingClaims => exact elsewhere ⟨state, current⟩
  | joiningWaitingAck =>
    rw [state] at answers
    exact answers (inv.unacked _ entry held)

end Quiet

section Handle

variable (env : Env Counter) (clean : env.realm = .pristine) (manager : MatchManager Counter)
variable (inv : manager.Inv)

-- The entry of an advert carries no acks, and no claims while the agent serves it.
theorem MatchManager.Inv.advertised_unanswered {manager : MatchManager Counter}
    (inv : manager.Inv) (msg : MatchAdvertiseMessage Counter) (seen : Int) :
    ¬manager.Answers (manager.matchMap.advertised msg seen) := by
  rintro ⟨current, answers⟩
  rw [advertised_matchId inv.keyed] at current
  unfold MatchMap.advertised at answers
  cases state : manager.matchAgent.state with
  | idle => simp [state] at answers
  | servingWaitingClaims =>
    cases held : manager.matchMap.lookup (getMatchID msg.advertiser msg.match_) with
    | none => simp [state, held, MatchState.new] at answers
    | some entry => simp [state, held, inv.unclaimed state _ _ held current] at answers
  | joiningWaitingAck =>
    cases held : manager.matchMap.lookup (getMatchID msg.advertiser msg.match_) with
    | none => simp [state, held, MatchState.new] at answers
    | some entry => simp [state, held, inv.unacked _ _ held] at answers

include clean

theorem restart_effect (depth : Nat) (turn : Turn Counter) (targetMatch : List String)
    (callback : Callback) (busy : turn.manager.matchAgent.state ≠ .idle)
    (targets : turn.manager.matchAgent.targetMatch = some targetMatch)
    (waiting : turn.manager.matchAgent.matchCallback = some callback)
    (keyed : turn.manager.matchMap.Keyed) :
    let after := (restartMatch env (handleMatchStateUpdate env (depth + 2))).turn turn
    ∃ actions, Search turn.manager targetMatch turn.manager.matchAgent.counter callback actions
        after.manager ∧ visible after.outputs = visible turn.outputs ++ actions := by
  rw [Handler.turn, restartMatch_run env clean _ targetMatch callback turn busy targets waiting]
  obtain ⟨actions, search, outputs⟩ := search_effect env clean depth targetMatch
    turn.manager.matchAgent.counter callback
    (turn.setAgent fun agent => { agent with state := .idle }) keyed
  exact ⟨actions, search.of_idle, outputs⟩

theorem findMatch_handle (targetMatch : List String) (counter : Counter) (callback : Callback)
    (idle : manager.matchAgent.state = .idle) :
    manager.handle env (.findMatch targetMatch counter callback) =
      let turn := Turn.search env (Turn.update env env.stack) targetMatch counter callback
        ⟨manager, 0, []⟩
      (turn.manager, turn.outputs) := by
  simp only [MatchManager.handle, Event.handler, Handler.turn, discard_run]
  rw [startMatch_run env clean _ _ _ _ _ idle]
  rfl

omit clean in
theorem findMatch_refused (targetMatch : List String) (counter : Counter) (callback : Callback)
    (busy : manager.matchAgent.state ≠ .idle) :
    manager.handle env (.findMatch targetMatch counter callback) = (manager, []) := by
  simp only [MatchManager.handle, Event.handler, Handler.turn, discard_run]
  rw [startMatch_refused env _ _ _ _ _ busy]

include inv

theorem findMatch_effect (targetMatch : List String) (counter : Counter) (callback : Callback) :
    let after := manager.handle env (.findMatch targetMatch counter callback)
    Effect manager (.findMatch targetMatch counter callback) (visible after.2) after.1 := by
  by_cases idle : manager.matchAgent.state = .idle
  · obtain ⟨depth, deep⟩ := Nat.exists_eq_add_of_le' env.stack_deep
    rw [findMatch_handle env clean manager _ _ _ idle, deep]
    obtain ⟨actions, search, outputs⟩ := search_effect env clean (depth + 1) targetMatch counter
      callback ⟨manager, 0, []⟩ inv.keyed
    simp only [visible_nil, List.nil_append] at outputs
    have effect := Effect.started targetMatch counter callback actions _ idle search
    rw [← outputs] at effect
    exact effect
  · rw [findMatch_refused env manager _ _ _ idle]
    exact .quiet _ idle

omit clean inv in
theorem dropExpired_run (t : Int) (keys : List String) (turn : Turn Counter) :
    ∃ map, dropExpired t (keys.map .own) turn = .ok () (turn.setMap fun _ => map) ∧
      ∀ key, map.lookup key =
        if key ∈ keys then (turn.manager.matchMap.lookup key).filter (MatchState.fresh t)
        else turn.manager.matchMap.lookup key := by
  induction keys generalizing turn with
  | nil => exact ⟨_, rfl, fun key => by simp⟩
  | cons m keys ih =>
    simp only [List.map_cons, dropExpired, bind_run, getMap_run]
    cases held : turn.manager.matchMap.lookup m with
    | none =>
      obtain ⟨map, run, lookups⟩ := ih turn
      refine ⟨map, by simpa using run, fun key => ?_⟩
      rw [lookups]
      by_cases same : key = m
      · subst same
        simp [held]
      · simp [same]
    | some entry =>
      by_cases late : t - entry.lastSeen > advertiseTimeout
      · have stale : entry.fresh t = false := decide_eq_false (by omega)
        obtain ⟨map, run, lookups⟩ := ih (turn.setMap (·.erase m))
        refine ⟨map, by simpa [late] using run, fun key => ?_⟩
        rw [lookups]
        by_cases same : key = m
        · subst same
          simp [held, Option.filter, stale]
        · simp [same, AList.lookup_erase_ne same]
      · have stays : entry.fresh t = true := decide_eq_true (by omega)
        obtain ⟨map, run, lookups⟩ := ih turn
        refine ⟨map, by simpa [late] using run, fun key => ?_⟩
        rw [lookups]
        by_cases same : key = m
        · subst same
          simp [held, Option.filter, stays]
        · simp [same]

omit clean inv in
theorem truthy_of_ne_empty {matchId : Option String} {name : String} (current : matchId = some name)
    (nonempty : name ≠ "") : truthy matchId = some name := by
  subst current
  unfold truthy
  split
  next empty => exact absurd (by simpa using empty) nonempty
  next => rfl

omit clean in
theorem poll_run (time : Int) [Decidable (manager.RestartDue time)] :
    poll env time ⟨manager, 0, []⟩ =
      if manager.RestartDue time then
        restartMatch env (handleMatchStateUpdate env env.stack) ⟨manager, 0, []⟩
      else .ok () ⟨manager, 0, []⟩ := by
  simp only [poll, bind_run, getAgent_run]
  cases state : manager.matchAgent.state with
  | idle => simp [MatchManager.RestartDue, state]
  | servingWaitingClaims =>
    by_cases late : time - manager.matchAgent.lastActionStart > servingRebroadcastTimeout <;>
      simp [MatchManager.RestartDue, state, late]
  | joiningWaitingAck =>
    obtain ⟨-, -, matchId, -, -, current, nonempty⟩ := inv.consistent.waits (by simp [state])
    have named : truthy manager.matchAgent.matchId = some matchId :=
      truthy_of_ne_empty current nonempty
    simp only [named, bind_run, getMap_run]
    cases held : manager.matchMap.lookup matchId with
    | none => simp [MatchManager.RestartDue, state, current, held]
    | some entry =>
      -- the entry has no acks between events, so only the clock decides
      simp only [inv.unacked _ _ held]
      by_cases late : time - manager.matchAgent.lastActionStart > claimAckTimeout <;>
        simp [MatchManager.RestartDue, state, current, held, late]

omit clean in
theorem poll_handle {time : Int} (due : manager.RestartDue time) :
    manager.handle env (.poll time) =
      let turn := (restartMatch env (handleMatchStateUpdate env env.stack)).turn ⟨manager, 0, []⟩
      (turn.manager, turn.outputs) := by
  classical
  simp only [MatchManager.handle, Event.handler, Handler.turn]
  rw [poll_run env manager inv time, if_pos due]

omit clean in
theorem poll_early {time : Int} (early : ¬manager.RestartDue time) :
    manager.handle env (.poll time) = (manager, []) := by
  classical
  simp only [MatchManager.handle, Event.handler, Handler.turn]
  rw [poll_run env manager inv time, if_neg early]

theorem poll_effect (time : Int) :
    let after := manager.handle env (.poll time)
    Effect manager (.poll time) (visible after.2) after.1 := by
  classical
  by_cases due : manager.RestartDue time
  · obtain ⟨depth, deep⟩ := Nat.exists_eq_add_of_le' env.stack_deep
    have busy := RestartDue.busy due
    obtain ⟨targetMatch, callback, -, targets, waiting, -⟩ := inv.consistent.waits busy
    rw [poll_handle env manager inv due, deep]
    obtain ⟨actions, search, outputs⟩ := restart_effect env clean (depth + 1) ⟨manager, 0, []⟩
      targetMatch callback busy targets waiting inv.keyed
    simp only [visible_nil, List.nil_append] at outputs
    simp only [outputs]
    exact .restarted time targetMatch callback actions _ due targets waiting search
  · rw [poll_early env manager inv due]
    exact .quiet _ due

omit inv in
theorem checkTimeouts_handle (time : Int) :
    ∃ map, manager.handle env (.checkTimeouts time) = ({ manager with matchMap := map }, []) ∧
      ∀ key, map.lookup key =
        (manager.matchMap.lookup key).filter (MatchState.fresh (env.clock 0)) := by
  obtain ⟨map, dropped, fresh⟩ := dropExpired_run (env.clock 0) manager.matchMap.keys
    (Turn.asked ⟨manager, 0, []⟩)
  refine ⟨map, ?_, fun key => ?_⟩
  · simp only [MatchManager.handle, Event.handler, Handler.turn, checkTimeouts, getTime, bind_run,
      query_run, getMap_run, clean, Realm.forIn_pristine, Turn.asked_manager, dropped]
    rfl
  · rw [fresh]
    by_cases own : key ∈ manager.matchMap.keys
    · rw [if_pos own]
      rfl
    · have absent : manager.matchMap.lookup key = none := AList.lookup_eq_none.mpr own
      simp [own, absent]

omit inv in
theorem checkTimeouts_effect (time : Int) :
    let after := manager.handle env (.checkTimeouts time)
    Effect manager (.checkTimeouts time) (visible after.2) after.1 := by
  obtain ⟨map, handled, fresh⟩ := checkTimeouts_handle env clean manager time
  rw [handled]
  exact .expired time (env.clock 0) map fresh

theorem stopMatch_effect :
    let after := manager.handle env .stopMatch
    Effect manager .stopMatch (visible after.2) after.1 := by
  simp only [MatchManager.handle, Event.handler, Handler.turn, stopMatch, bind_run, getAgent_run]
  cases state : manager.matchAgent.state with
  | idle => exact .quiet _ state
  | servingWaitingClaims =>
    obtain ⟨-, callback, matchId, -, waiting, current, nonempty⟩ :=
      inv.consistent.waits (by simp [state])
    have named : truthy manager.matchAgent.matchId = some matchId :=
      truthy_of_ne_empty current nonempty
    have effect (throws : Bool) :=
      Effect.unadvertised matchId callback throws ⟨state, current⟩ waiting
    by_cases throws : env.callbackThrows 0
    · simpa [named, sendMessage_run env clean, Turn.sendMessage, Turn.handleMessage,
        matchCallback, waiting, throws, Turn.emit, Turn.setMap, Turn.asked, Turn.clearState,
        Turn.setAgent, MatchManager.drop, MatchManager.clear] using effect true
    · simpa [named, sendMessage_run env clean, Turn.sendMessage, Turn.handleMessage,
        matchCallback, waiting, throws, Turn.emit, Turn.setMap, Turn.asked, Turn.clearState,
        Turn.setAgent, MatchManager.drop, MatchManager.clear] using effect false
  | joiningWaitingAck =>
    obtain ⟨-, callback, -, -, waiting, -⟩ := inv.consistent.waits (by simp [state])
    have effect (throws : Bool) := Effect.stopped callback throws state waiting
    by_cases throws : env.callbackThrows 0
    · simpa [matchCallback, waiting, throws, Turn.emit, Turn.asked, Turn.clearState, Turn.setAgent,
        MatchManager.clear] using effect true
    · simpa [matchCallback, waiting, throws, Turn.emit, Turn.asked, Turn.clearState, Turn.setAgent,
        MatchManager.clear] using effect false

omit inv in
theorem receive_handle (msg : Message Counter) :
    manager.handle env (.receive msg) =
      let turn := Turn.handleMessage env (Turn.update env env.stack) msg ⟨manager, 0, []⟩
      (turn.manager, turn.outputs) := by
  simp only [MatchManager.handle, Event.handler, Handler.turn, handleMessage_run env clean]
  rfl

theorem advertise_effect (msg : MatchAdvertiseMessage Counter) :
    let after := manager.handle env (.receive (.advertise msg))
    Effect manager (.receive (.advertise msg)) (visible after.2) after.1 := by
  obtain ⟨depth, deep⟩ := Nat.exists_eq_add_of_le' env.stack_deep
  let entry := manager.matchMap.advertised msg (env.clock 0)
  let put : Turn Counter :=
    (Turn.asked ⟨manager, 0, []⟩).setMap (·.insert (getMatchID msg.advertiser msg.match_) entry)
  have named : entry.matchId = getMatchID msg.advertiser msg.match_ :=
    advertised_matchId inv.keyed msg _
  have quiet : ¬put.manager.Answers entry := inv.advertised_unanswered msg _
  have raised := raise_quiet env (depth + 2) entry put (getMatchID msg.advertiser msg.match_)
    (AList.lookup_insert _) (update_quiet env clean _ entry put quiet)
  have effect : Effect manager (.receive (.advertise msg)) [] (manager.put entry) :=
    .advertised msg _
  have reached : put.manager = manager.put entry := by
    simp only [put, MatchManager.put, named]
    rfl
  simp only [receive_handle env clean, deep, Turn.handleMessage, Turn.handleAdvertise]
  rw [← reached, ← raised.1] at effect
  convert effect using 1
  exact raised.2

theorem claim_effect (msg : MatchClaimMessage Counter) :
    let after := manager.handle env (.receive (.claim msg))
    Effect manager (.receive (.claim msg)) (visible after.2) after.1 := by
  obtain ⟨depth, deep⟩ := Nat.exists_eq_add_of_le' env.stack_deep
  obtain ⟨matchId, user, counter⟩ := msg
  simp only [receive_handle env clean, deep, Turn.handleMessage]
  cases held : manager.matchMap.lookup matchId with
  | none =>
    simp only [Turn.handleClaim, held]
    exact .quiet _ (by simp [MatchManager.Quiet, held])
  | some entry =>
    obtain rfl := inv.keyed matchId entry held
    by_cases seen : entry.claimsSeen.any (fun claim => claim.1 = user)
    · simp only [Turn.handleClaim, held, seen, if_true]
      refine .quiet _ fun entry' held' => ?_
      obtain rfl := Option.some.inj (held.symm.trans held')
      simpa using seen
    · have first : ∀ claim ∈ entry.claimsSeen, claim.1 ≠ user := fun claim member same =>
        seen (List.any_eq_true.mpr ⟨claim, member, by simpa using same⟩)
      by_cases serves : manager.Serves entry.matchId
      · have unclaimed := inv.unclaimed serves.1 _ _ held serves.2
        obtain ⟨-, callback, -, -, waiting, -⟩ := inv.consistent.waits (by simp [serves.1])
        let put : Turn Counter :=
          Turn.setMap (·.insert entry.matchId (entry.pushClaim user counter)) ⟨manager, 0, []⟩
        have acknowledged := update_acknowledge env clean (depth + 1) put
          (entry.pushClaim user counter) user counter [] (AList.lookup_insert _) serves.2 serves.1
          (by simp [MatchState.pushClaim, unclaimed])
        have unacked : (entry.pushClaim user counter).acksSeen = [] := inv.unacked _ entry held
        have effect := Effect.hosted entry user counter callback held unclaimed serves waiting
        have reached : (put.manager.drop entry.matchId).clear =
            (manager.drop entry.matchId).clear :=
          congrArg MatchManager.clear (manager.drop_put (entry.pushClaim user counter))
        simp only [Turn.handleClaim, held, seen, Bool.false_eq_true, if_false, Turn.raise,
          Turn.setMap_matchMap, AList.lookup_insert, visible_tell, Turn.tell_manager]
        rw [acknowledged, acknowledge_manager, acknowledge_visible _ _ put callback waiting,
          pushClaim_matchId, reached]
        simp only [MatchState.acks, MatchState.acknowledged, unacked, List.not_mem_nil, if_false]
        exact effect
      · have quiet := claim_quiet inv held user counter serves
        have claimed := handleClaim_quiet env clean (depth + 2) entry user counter
          ⟨manager, 0, []⟩ held quiet
        simp only [seen] at claimed
        rw [claimed.1, claimed.2]
        exact .claimed entry user counter held first serves

section Ack

variable {manager} {entry : MatchState Counter} (user : PublicKey)
variable (held : manager.matchMap.lookup entry.matchId = some entry)

include held

theorem ack_handle :
    manager.handle env (.receive (.ack ⟨entry.matchId, user⟩)) =
      let pushed := entry.pushAck user
      let turn := ((Turn.putting manager pushed).raise (Turn.update env env.stack)
        pushed.matchId).setMap (·.erase pushed.matchId)
      (turn.manager, turn.outputs) := by
  rw [receive_handle env clean]
  simp only [Turn.handleMessage, Turn.handleAck, held, inv.unacked _ _ held, List.any_nil,
    Bool.false_eq_true, if_false, Turn.putting, pushAck_matchId]

variable (depth : Nat) (joins : manager.Joins entry.matchId)

include joins

theorem ack_updates :
    (Turn.putting manager (entry.pushAck user)).update env (depth + 1)
        (some (entry.pushAck user)) =
      if manager.matchAgent.id = user then
        (Turn.putting manager (entry.pushAck user)).complete (entry.pushAck user)
      else (restartMatch env (handleMatchStateUpdate env depth)).turn
        (Turn.putting manager (entry.pushAck user)) := by
  have acked : (entry.pushAck user).acksSeen = [user] := by simp [inv.unacked _ _ held]
  have same : (Turn.putting manager (entry.pushAck user)).manager.matchAgent = manager.matchAgent :=
    rfl
  rw [update_some env clean]
  simp only [same, pushAck_matchId, acked, joins.1, joins.2, ne_eq, not_true_eq_false, if_false]

theorem ack_completes (self : manager.matchAgent.id = user) :
    let pushed := entry.pushAck user
    let put := Turn.putting manager pushed
    put.raise (Turn.update env (depth + 1)) pushed.matchId =
      (put.complete pushed).tell manager.added pushed.matchId := by
  intro pushed put
  have isPut : put.manager.matchMap.lookup pushed.matchId = some pushed := AList.lookup_insert _
  rw [Turn.raise, isPut, ack_updates env clean inv user held depth joins, if_pos self]
  rfl

theorem ack_restarts (other : manager.matchAgent.id ≠ user) :
    let pushed := entry.pushAck user
    let put := Turn.putting manager pushed
    put.raise (Turn.update env (depth + 1)) pushed.matchId =
      ((restartMatch env (handleMatchStateUpdate env depth)).turn put).tell manager.added
        pushed.matchId := by
  intro pushed put
  have isPut : put.manager.matchMap.lookup pushed.matchId = some pushed := AList.lookup_insert _
  rw [Turn.raise, isPut, ack_updates env clean inv user held depth joins, if_neg other]
  rfl

end Ack

theorem ack_effect (msg : MatchAckMessage) :
    let after := manager.handle env (.receive (.ack msg))
    Effect manager (.receive (.ack msg)) (visible after.2) after.1 := by
  obtain ⟨depth, deep⟩ := Nat.exists_eq_add_of_le' env.stack_deep
  obtain ⟨matchId, user⟩ := msg
  cases held : manager.matchMap.lookup matchId with
  | none =>
    simp only [receive_handle env clean, Turn.handleMessage, Turn.handleAck, held]
    exact .quiet _ held
  | some entry =>
    obtain rfl := inv.keyed matchId entry held
    let pushed := entry.pushAck user
    let put := Turn.putting manager pushed
    have dropped : put.manager.drop pushed.matchId = manager.drop entry.matchId :=
      manager.drop_put pushed
    rw [ack_handle env clean inv user held, deep]
    by_cases joins : manager.Joins entry.matchId
    · obtain ⟨targetMatch, callback, -, targets, waiting, -⟩ :=
        inv.consistent.waits (by simp [joins.1])
      by_cases self : manager.matchAgent.id = user
      · subst self
        simp only [ack_completes env clean inv _ held (depth + 2) joins rfl, Turn.setMap_outputs,
          visible_tell, setMap_erase, Turn.tell_manager, complete_manager,
          complete_visible pushed put callback waiting, pushed, put]
        rw [MatchManager.clear_drop_drop, dropped]
        exact .joined entry callback held joins waiting
      · have keyed : put.manager.matchMap.Keyed := inv.keyed.insert rfl
        have busy : put.manager.matchAgent.state ≠ .idle := by simp [put, Turn.putting, joins.1]
        obtain ⟨actions, search, outputs⟩ := restart_effect env clean depth put targetMatch
          callback busy targets waiting keyed
        have effect := Effect.passedOver entry user targetMatch callback actions _ held joins
          (Ne.symm self) targets waiting search
        simp only [ack_restarts env clean inv user held (depth + 2) joins self, Turn.setMap_outputs,
          visible_tell]
        rw [outputs]
        exact effect
    · have quiet : ¬put.manager.Answers pushed := ack_quiet inv held user joins
      have raised := raise_quiet env (depth + 2) pushed put pushed.matchId (AList.lookup_insert _)
        (update_quiet env clean (depth + 2) _ put quiet)
      simp only [Turn.setMap_outputs, raised.2, setMap_erase, raised.1, pushed, put]
      rw [dropped]
      exact .filled entry user held joins

theorem receive_effect (msg : Message Counter) :
    let after := manager.handle env (.receive msg)
    Effect manager (.receive msg) (visible after.2) after.1 := by
  cases msg with
  | advertise msg => exact advertise_effect env clean manager inv msg
  | unadvertise msg =>
    simp only [receive_handle env clean, Turn.handleMessage]
    exact .withdrawn msg.matchId
  | claim msg => exact claim_effect env clean manager inv msg
  | ack msg => exact ack_effect env clean manager inv msg

theorem handle_effect (event : Event Counter) :
    let after := manager.handle env event
    Effect manager event (visible after.2) after.1 := by
  cases event with
  | findMatch targetMatch counter callback =>
    exact findMatch_effect env clean manager inv targetMatch counter callback
  | stopMatch => exact stopMatch_effect env clean manager inv
  | poll time => exact poll_effect env clean manager inv time
  | checkTimeouts time => exact checkTimeouts_effect env clean manager time
  | receive msg => exact receive_effect env clean manager inv msg
  | receiveMalformed => exact .quiet _ trivial
  | addMatchListener listener => exact .listening listener

end Handle

end RoundTable.Matcher
