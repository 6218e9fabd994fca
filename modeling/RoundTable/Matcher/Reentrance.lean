import RoundTable.Matcher.Invariant

set_option autoImplicit false

namespace RoundTable.Matcher

open Script

variable {Counter : Type}

-- The listener of the agent `depth` calls deep, with `bottom` under the last of them.
def nested (env : Env Counter) (bottom : UpdateHandler Counter) : Nat → UpdateHandler Counter
  | 0 => bottom
  | depth + 1 => agentUpdate env (nested env bottom depth)

section Listener

variable (env : Env Counter) (listener : UpdateHandler Counter)

def pollWith (time : Int) : Handler Counter Unit := do
  let restart := restartMatch env listener
  let agent ← getAgent
  match agent.state with
  | .servingWaitingClaims =>
    if time - agent.lastActionStart > servingRebroadcastTimeout then restart
  | .joiningWaitingAck =>
    let timedOut := time - agent.lastActionStart > claimAckTimeout
    match truthy agent.matchId with
    | none => if timedOut then restart
    | some matchId =>
      match (← getMap).lookup matchId with
      | none => restart
      | some matchState =>
        match matchState.acksSeen with
        | user :: _ => if user ≠ agent.id then restart
        | [] => if timedOut then restart
  | .idle => pure ()

def Event.handlerWith : Event Counter → Handler Counter Unit
  | .findMatch targetMatch counter callback =>
    discard <| Matcher.startMatch env listener targetMatch counter callback
  | .stopMatch => Matcher.stopMatch env listener
  | .poll time => pollWith env listener time
  | .checkTimeouts time => Matcher.checkTimeouts env time
  | .receive msg => handleMessage env listener msg
  | .receiveMalformed => pure ()
  | .addMatchListener listener => addMatchStateListener listener

end Listener

theorem handlerWith_self (env : Env Counter) (event : Event Counter) :
    event.handlerWith env (handleMatchStateUpdate env env.stack) = event.handler env := by
  cases event <;> rfl

theorem handleMatchStateUpdate_nested (env : Env Counter) (depth more : Nat) :
    handleMatchStateUpdate env (depth + more) =
      nested env (handleMatchStateUpdate env depth) more := by
  induction more with
  | zero => rfl
  | succ more ih => rw [← Nat.add_assoc, handleMatchStateUpdate_succ, ih, nested]

namespace Turn

-- What the agent does with an update while it does not wait to join a match.
def answer (matchState : MatchState Counter) (turn : Turn Counter) : Turn Counter :=
  if turn.manager.matchAgent.matchId ≠ some matchState.matchId then turn
  else
    match turn.manager.matchAgent.state, matchState.claimsSeen with
    | .servingWaitingClaims, (user, _) :: _ => turn.acknowledge matchState user
    | _, _ => turn

def answering : Update Counter
  | none, turn => turn
  | some matchState, turn => turn.answer matchState

def restart (env : Env Counter) (turn : Turn Counter) : Turn Counter :=
  match turn.manager.matchAgent.state, turn.manager.matchAgent.targetMatch,
    turn.manager.matchAgent.matchCallback with
  | .idle, _, _ | _, none, _ | _, _, none => turn
  | _, some targetMatch, some callback =>
    (turn.setAgent fun agent => { agent with state := .idle }).search env answering targetMatch
      turn.manager.matchAgent.counter callback

def settle (env : Env Counter) (matchState : MatchState Counter) (turn : Turn Counter) :
    Turn Counter :=
  if turn.manager.matchAgent.matchId ≠ some matchState.matchId then turn
  else
    match turn.manager.matchAgent.state, matchState.acksSeen with
    | .joiningWaitingAck, user :: _ =>
      if turn.manager.matchAgent.id = user then turn.complete matchState else turn.restart env
    | _, _ => turn.answer matchState

def settling (env : Env Counter) : Update Counter
  | none, turn => turn
  | some matchState, turn => turn.settle env matchState

theorem settling_some (env : Env Counter) (matchState : MatchState Counter) (turn : Turn Counter) :
    settling env (some matchState) turn = turn.settle env matchState := rfl

end Turn

theorem handleMessage_congr (env : Env Counter) {update update' : Update Counter}
    (msg : Message Counter) (turn : Turn Counter) (keyed : turn.manager.matchMap.Keyed)
    (agree : ∀ matchState next, next.manager.matchAgent = turn.manager.matchAgent →
      next.manager.matchMap.Keyed →
        next.manager.matchMap.lookup matchState.matchId = some matchState →
          update (some matchState) next = update' (some matchState) next) :
    turn.handleMessage env update msg = turn.handleMessage env update' msg := by
  cases msg with
  | unadvertise msg => rfl
  | advertise msg =>
    have named := advertised_matchId keyed msg (env.clock turn.queries)
    simp only [Turn.handleMessage, Turn.handleAdvertise, Turn.raise, Turn.setMap_matchMap,
      AList.lookup_insert]
    refine congrArg (Turn.tell _ _) (agree _ _ ?_ (keyed.insert named) ?_)
    · rfl
    · rw [named]
      exact AList.lookup_insert _
  | claim msg =>
    simp only [Turn.handleMessage, Turn.handleClaim]
    cases held : turn.manager.matchMap.lookup msg.matchId with
    | none => rfl
    | some entry =>
      have named : entry.matchId = msg.matchId := keyed _ _ held
      simp only [Turn.raise, Turn.setMap_matchMap, AList.lookup_insert]
      split
      next => rfl
      next =>
        refine congrArg (Turn.tell _ _) (agree _ _ ?_ (keyed.insert named) ?_)
        · rfl
        · rw [pushClaim_matchId, named]
          exact AList.lookup_insert _
  | ack msg =>
    simp only [Turn.handleMessage, Turn.handleAck]
    cases held : turn.manager.matchMap.lookup msg.matchId with
    | none => rfl
    | some entry =>
      have named : entry.matchId = msg.matchId := keyed _ _ held
      simp only [Turn.raise, Turn.setMap_matchMap, AList.lookup_insert]
      split
      next => rfl
      next =>
        refine congrArg (fun moved => Turn.setMap (·.erase msg.matchId) (Turn.tell _ _ moved))
          (agree _ _ ?_ (keyed.insert named) ?_)
        · rfl
        · rw [pushAck_matchId, named]
          exact AList.lookup_insert _

section Settle

variable (env : Env Counter) (clean : env.realm = .pristine) (listener : UpdateHandler Counter)

include clean

theorem agentUpdate_answer (matchState : MatchState Counter) (turn : Turn Counter)
    (held : turn.manager.matchMap.lookup matchState.matchId = some matchState)
    (elsewhere : ¬turn.manager.Joins matchState.matchId) :
    UpdateHandler.update (agentUpdate env (agentUpdate env listener)) (some matchState) turn =
      turn.answer matchState := by
  unfold Turn.answer
  split
  next other =>
    rw [agentUpdate_some env clean]
    exact if_pos other
  next current =>
    rw [not_not] at current
    cases state : turn.manager.matchAgent.state with
    | idle =>
      rw [agentUpdate_some env clean]
      simp [current, state]
    | joiningWaitingAck => exact absurd ⟨state, current⟩ elsewhere
    | servingWaitingClaims =>
      cases claims : matchState.claimsSeen with
      | nil =>
        rw [agentUpdate_some env clean]
        simp [current, state, claims]
      | cons claim rest =>
        exact agentUpdate_acknowledge env clean listener turn matchState claim.1 claim.2 rest held
          current state claims

theorem search_answers (targetMatch : List String) (counter : Counter) (callback : Callback)
    (turn : Turn Counter) (keyed : turn.manager.matchMap.Keyed) :
    turn.search env (UpdateHandler.update (agentUpdate env (agentUpdate env listener))) targetMatch
      counter callback = turn.search env Turn.answering targetMatch counter callback := by
  have waits (waiting : Turn Counter) (msg : Message Counter)
      (map : waiting.manager.matchMap = turn.manager.matchMap)
      (elsewhere : ∀ matchId, ¬waiting.manager.Joins matchId) :
      waiting.sendMessage env (UpdateHandler.update (agentUpdate env (agentUpdate env listener)))
        msg = waiting.sendMessage env Turn.answering msg := by
    refine handleMessage_congr env msg (waiting.emit (.publish msg)) (map ▸ keyed)
      fun matchState next agent _ held => ?_
    refine agentUpdate_answer env clean listener matchState next held fun joins => ?_
    rw [MatchManager.Joins, agent] at joins
    exact elsewhere _ joins
  unfold Turn.search
  simp only
  split
  next =>
    rw [waits]
    · rfl
    · exact fun matchId joins => by cases joins.2
  next =>
    rw [waits]
    · rfl
    · exact fun matchId joins => by cases joins.1

theorem restart_answers (turn : Turn Counter) (keyed : turn.manager.matchMap.Keyed) :
    restartMatch env (agentUpdate env (agentUpdate env listener)) turn =
      .ok () (turn.restart env) := by
  by_cases idle : turn.manager.matchAgent.state = .idle
  · simp [restartMatch, Turn.restart, idle]
  · cases targets : turn.manager.matchAgent.targetMatch with
    | none => cases state : turn.manager.matchAgent.state <;>
        simp [restartMatch, Turn.restart, targets, state]
    | some targetMatch =>
      cases waiting : turn.manager.matchAgent.matchCallback with
      | none => cases state : turn.manager.matchAgent.state <;>
          simp [restartMatch, Turn.restart, targets, waiting, state]
      | some callback =>
        rw [restartMatch_run env clean _ targetMatch callback turn idle targets waiting]
        have searched := search_answers env clean listener targetMatch
          turn.manager.matchAgent.counter callback
          (turn.setAgent fun agent => { agent with state := .idle }) keyed
        unfold Turn.restart
        cases state : turn.manager.matchAgent.state with
        | idle => exact absurd state idle
        | servingWaitingClaims | joiningWaitingAck =>
          simp only [targets, waiting]
          exact congrArg (EStateM.Result.ok ()) searched

theorem agentUpdate_settle (matchState : MatchState Counter) (turn : Turn Counter)
    (keyed : turn.manager.matchMap.Keyed)
    (held : turn.manager.matchMap.lookup matchState.matchId = some matchState) :
    UpdateHandler.update (nested env listener 3) (some matchState) turn =
      turn.settle env matchState := by
  unfold Turn.settle
  split
  next other =>
    rw [nested, agentUpdate_some env clean]
    exact if_pos other
  next current =>
    rw [not_not] at current
    by_cases joins : turn.manager.Joins matchState.matchId
    · rw [nested, agentUpdate_some env clean]
      simp only [current, ne_eq, not_true_eq_false, if_false, joins.1]
      cases acks : matchState.acksSeen with
      | nil => simp [Turn.answer, current, joins.1]
      | cons user rest =>
        simp only
        split
        next => rfl
        next => simp only [Handler.turn, nested, restart_answers env clean listener turn keyed]
    · have answered := agentUpdate_answer env clean (nested env listener 1) matchState turn held joins
      have serving : turn.manager.matchAgent.state ≠ .joiningWaitingAck :=
        fun state => joins ⟨state, current⟩
      simp only [nested] at answered ⊢
      rw [answered]
      cases state : turn.manager.matchAgent.state with
      | joiningWaitingAck => exact absurd state serving
      | idle | servingWaitingClaims => rfl

omit clean in
theorem stopMatch_silent (listener' : UpdateHandler Counter) :
    stopMatch env listener = stopMatch env listener' := rfl

omit clean in
theorem pollWith_run (time : Int) (turn : Turn Counter) :
    ∃ due : Bool, ∀ listener, pollWith env listener time turn =
      if due then restartMatch env listener turn else .ok () turn := by
  simp only [pollWith, bind_run, getAgent_run]
  cases turn.manager.matchAgent.state with
  | idle => exact ⟨false, fun _ => rfl⟩
  | servingWaitingClaims =>
    by_cases late : time - turn.manager.matchAgent.lastActionStart > servingRebroadcastTimeout
    · exact ⟨true, fun _ => by simp [late]⟩
    · exact ⟨false, fun _ => by simp [late]⟩
  | joiningWaitingAck =>
    have timed (late : Prop) [Decidable late] : ∃ due : Bool, ∀ listener : UpdateHandler Counter,
        (if late then restartMatch env listener else pure ()) turn =
          if due then restartMatch env listener turn else .ok () turn :=
      ⟨decide late, fun _ => by by_cases h : late <;> simp [h]⟩
    cases truthy turn.manager.matchAgent.matchId with
    | none => exact timed _
    | some matchId =>
      simp only [bind_run, getMap_run]
      cases turn.manager.matchMap.lookup matchId with
      | none => exact ⟨true, fun _ => rfl⟩
      | some entry =>
        cases acks : entry.acksSeen with
        | nil => simpa only [acks] using timed _
        | cons user rest =>
          by_cases self : user = turn.manager.matchAgent.id
          · exact ⟨false, fun _ => by simp [acks, self]⟩
          · exact ⟨true, fun _ => by simp [acks, self]⟩

theorem handleMessage_update (msg : Message Counter) (turn : Turn Counter) :
    handleMessage env listener msg turn =
      .ok () (turn.handleMessage env (UpdateHandler.update listener) msg) :=
  handleMessage_run env clean listener turn msg

theorem startMatch_update (targetMatch : List String) (counter : Counter) (callback : Callback)
    (turn : Turn Counter) (idle : turn.manager.matchAgent.state = .idle) :
    startMatch env listener targetMatch counter callback turn =
      .ok true (turn.search env (UpdateHandler.update listener) targetMatch counter callback) :=
  startMatch_run env clean listener targetMatch counter callback turn idle

section Nested

variable (turn : Turn Counter) (keyed : turn.manager.matchMap.Keyed)

include keyed

theorem startMatch_nested (targetMatch : List String) (counter : Counter) (callback : Callback)
    (idle : turn.manager.matchAgent.state = .idle) :
    startMatch env (nested env listener 3) targetMatch counter callback turn =
      .ok true (turn.search env Turn.answering targetMatch counter callback) := by
  rw [startMatch_update env clean _ _ _ _ _ idle]
  exact congrArg (EStateM.Result.ok true) (search_answers env clean (nested env listener 1)
    targetMatch counter callback turn keyed)

theorem restartMatch_nested :
    restartMatch env (nested env listener 3) turn = .ok () (turn.restart env) :=
  restart_answers env clean (nested env listener 1) turn keyed

theorem handleMessage_nested (msg : Message Counter) :
    handleMessage env (nested env listener 3) msg turn =
      .ok () (turn.handleMessage env (Turn.settling env) msg) := by
  rw [handleMessage_update env clean]
  refine congrArg (EStateM.Result.ok ()) (handleMessage_congr env msg turn keyed ?_)
  intro matchState next _ keyed' held
  rw [Turn.settling_some, agentUpdate_settle env clean listener matchState next keyed' held]

-- Whatever stands under three calls of the listener, an event does not get to it.
theorem handlerWith_nested (bottom bottom' : UpdateHandler Counter) (event : Event Counter) :
    event.handlerWith env (nested env bottom 3) turn =
      event.handlerWith env (nested env bottom' 3) turn := by
  cases event with
  | findMatch targetMatch counter callback =>
    simp only [Event.handlerWith, discard_run]
    by_cases idle : turn.manager.matchAgent.state = .idle
    · rw [startMatch_nested env clean bottom turn keyed _ _ _ idle,
        startMatch_nested env clean bottom' turn keyed _ _ _ idle]
    · rw [startMatch_refused env _ _ _ _ _ idle, startMatch_refused env _ _ _ _ _ idle]
  | stopMatch => exact congrFun (stopMatch_silent env _ _) turn
  | poll time =>
    obtain ⟨due, polls⟩ := pollWith_run env time turn
    simp only [Event.handlerWith, polls, restartMatch_nested env clean _ turn keyed]
  | receive msg => simp only [Event.handlerWith, handleMessage_nested env clean _ turn keyed]
  | checkTimeouts | receiveMalformed | addMatchListener => simp only [Event.handlerWith]

end Nested

end Settle

def Output.isPublish : Output Counter → Bool
  | .publish _ => true
  | _ => false

def publishes (outputs : List (Output Counter)) : Nat :=
  outputs.countP Output.isPublish

@[simp] theorem publishes_append (xs ys : List (Output Counter)) :
    publishes (xs ++ ys) = publishes xs + publishes ys := List.countP_append ..

@[simp] theorem publishes_nil : publishes ([] : List (Output Counter)) = 0 := rfl

@[simp] theorem publishes_cons (msg : Message Counter) (rest : List (Output Counter)) :
    publishes (.publish msg :: rest) = publishes rest + 1 := List.countP_cons_of_pos rfl

@[simp] theorem publishes_tell (added : List Nat) (matchId : String) (turn : Turn Counter) :
    publishes (turn.tell added matchId).outputs = publishes turn.outputs := by
  simp [Turn.tell, publishes, List.countP_map, Function.comp_def, Output.isPublish]

theorem publishes_callback (result : Option (MatchState Counter)) (turn : Turn Counter) :
    publishes (turn.callback result).outputs = publishes turn.outputs := by
  unfold Turn.callback
  cases turn.manager.matchAgent.matchCallback <;> simp [publishes, Output.isPublish]

theorem publishes_complete (matchState : MatchState Counter) (turn : Turn Counter) :
    publishes (turn.complete matchState).outputs = publishes turn.outputs :=
  publishes_callback (some matchState) (turn.setMap (·.erase matchState.matchId))

theorem publishes_acknowledge (matchState : MatchState Counter) (user : PublicKey)
    (turn : Turn Counter) :
    publishes (turn.acknowledge matchState user).outputs ≤ publishes turn.outputs + 2 := by
  unfold Turn.acknowledge
  split <;> simp [publishes_complete]

theorem publishes_answer (matchState : MatchState Counter) (turn : Turn Counter) :
    publishes (turn.answer matchState).outputs ≤ publishes turn.outputs + 2 := by
  unfold Turn.answer
  split
  next => omega
  next =>
    split
    next => exact publishes_acknowledge _ _ turn
    next => omega

theorem publishes_handleMessage (env : Env Counter) {update : Update Counter} (bound : Nat)
    (bounded : ∀ matchState turn,
      publishes (update matchState turn).outputs ≤ publishes turn.outputs + bound)
    (msg : Message Counter) (turn : Turn Counter) :
    publishes (turn.handleMessage env update msg).outputs ≤ publishes turn.outputs + bound := by
  have raised (matchId : String) (next : Turn Counter) :
      publishes (next.raise update matchId).outputs ≤ publishes next.outputs + bound := by
    rw [Turn.raise, publishes_tell]
    exact bounded _ next
  cases msg with
  | advertise msg => exact raised _ _
  | unadvertise msg => exact Nat.le_add_right _ _
  | claim msg =>
    simp only [Turn.handleMessage, Turn.handleClaim]
    split
    next => exact Nat.le_add_right _ _
    next =>
      split
      next => exact Nat.le_add_right _ _
      next => exact raised _ _
  | ack msg =>
    simp only [Turn.handleMessage, Turn.handleAck]
    split
    next => exact Nat.le_add_right _ _
    next =>
      split
      next => exact Nat.le_add_right _ _
      next => exact raised _ _

theorem publishes_search (env : Env Counter) (targetMatch : List String) (counter : Counter)
    (callback : Callback) (turn : Turn Counter) :
    publishes (turn.search env Turn.answering targetMatch counter callback).outputs ≤
      publishes turn.outputs + 3 := by
  have sent (msg : Message Counter) (next : Turn Counter) :
      publishes (next.sendMessage env Turn.answering msg).outputs ≤ publishes next.outputs + 3 := by
    have answered (matchState : Option (MatchState Counter)) (turn : Turn Counter) :
        publishes (Turn.answering matchState turn).outputs ≤ publishes turn.outputs + 2 := by
      cases matchState with
      | none => exact Nat.le_add_right _ _
      | some matchState => exact publishes_answer matchState turn
    have handled := publishes_handleMessage env 2 answered msg (next.emit (.publish msg))
    simp only [Turn.emit_outputs, publishes_append, publishes_cons, publishes_nil] at handled
    rw [Turn.sendMessage]
    omega
  unfold Turn.search
  simp only
  split <;> exact sent _ _

theorem publishes_restart (env : Env Counter) (turn : Turn Counter) :
    publishes (turn.restart env).outputs ≤ publishes turn.outputs + 3 := by
  unfold Turn.restart
  split <;> first | exact Nat.le_add_right _ _ | exact publishes_search env _ _ _ _

theorem publishes_settling (env : Env Counter) (matchState : Option (MatchState Counter))
    (turn : Turn Counter) :
    publishes (turn.settling env matchState).outputs ≤ publishes turn.outputs + 3 := by
  cases matchState with
  | none => exact Nat.le_add_right _ _
  | some matchState =>
    rw [Turn.settling_some]
    unfold Turn.settle
    split
    next => exact Nat.le_add_right _ _
    next =>
      split
      next =>
        split
        next => rw [publishes_complete]; exact Nat.le_add_right _ _
        next => exact publishes_restart env turn
      next => exact (publishes_answer matchState turn).trans (Nat.le_succ _)

theorem publishes_stopMatch (env : Env Counter) (clean : env.realm = .pristine)
    (listener : UpdateHandler Counter) (turn : Turn Counter) :
    publishes ((stopMatch env listener).turn turn).outputs ≤ publishes turn.outputs + 1 := by
  -- whether the callback throws or not, what follows it publishes nothing
  have ended (next : Turn Counter) :
      publishes (Handler.turn (do matchCallback env none; clearState) next).outputs =
        publishes next.outputs := by
    have called := matchCallback_turn env none next
    rw [Handler.turn] at called
    rw [Handler.turn, bind_run, ← publishes_callback none next, ← called]
    cases matchCallback env none next <;> rfl
  simp only [Handler.turn, stopMatch, bind_run, getAgent_run] at ended ⊢
  cases turn.manager.matchAgent.state with
  | idle => exact Nat.le_add_right _ _
  | joiningWaitingAck =>
    simp only [bind_run]
    exact (ended turn).le.trans (Nat.le_succ _)
  | servingWaitingClaims =>
    cases truthy turn.manager.matchAgent.matchId with
    | none =>
      simp only [bind_run]
      exact (ended turn).le.trans (Nat.le_succ _)
    | some matchId =>
      have sent := ended (turn.sendMessage env (UpdateHandler.update listener)
        (.unadvertise ⟨matchId⟩))
      simp only [bind_run, sendMessage_run env clean]
      refine sent.le.trans ?_
      simp [Turn.sendMessage, Turn.handleMessage]

theorem publishes_handlerWith (env : Env Counter) (clean : env.realm = .pristine)
    (bottom : UpdateHandler Counter) (manager : MatchManager Counter)
    (keyed : manager.matchMap.Keyed) (event : Event Counter) :
    publishes ((event.handlerWith env (nested env bottom 3)).turn ⟨manager, 0, []⟩).outputs ≤ 3 := by
  let start : Turn Counter := ⟨manager, 0, []⟩
  have restarts := publishes_restart env start
  rw [Handler.turn]
  cases event with
  | findMatch targetMatch counter callback =>
    simp only [Event.handlerWith, discard_run]
    by_cases idle : manager.matchAgent.state = .idle
    · rw [startMatch_nested env clean bottom start keyed _ _ _ idle]
      exact publishes_search env targetMatch counter callback start
    · rw [startMatch_refused env _ _ _ _ start idle]
      exact Nat.zero_le _
  | stopMatch => exact (publishes_stopMatch env clean _ start).trans (Nat.le_add_left 1 2)
  | poll time =>
    obtain ⟨due, polls⟩ := pollWith_run env time start
    simp only [Event.handlerWith]
    rw [polls, restartMatch_nested env clean bottom start keyed]
    cases due
    · exact Nat.zero_le _
    · exact restarts
  | checkTimeouts time =>
    obtain ⟨map, handled, -⟩ := checkTimeouts_handle env clean manager time
    have silent := congrArg Prod.snd handled
    simp only [MatchManager.handle, Event.handler, Handler.turn] at silent
    simp only [Event.handlerWith, silent]
    exact Nat.zero_le _
  | receive msg =>
    simp only [Event.handlerWith]
    rw [handleMessage_nested env clean bottom start keyed]
    exact publishes_handleMessage env 3 (publishes_settling env) msg start
  | receiveMalformed | addMatchListener => exact Nat.zero_le _

/-- From any state with entries under their own ids, an event calls the listener of the agent no more
than three calls deep, and publishes no more than three messages. -/
theorem reentrance_bounded (env : Env Counter) (clean : env.realm = .pristine)
    (manager : MatchManager Counter) (keyed : manager.matchMap.Keyed) (event : Event Counter) :
    (∀ bottom, event.handlerWith env (nested env bottom 3) ⟨manager, 0, []⟩ =
      event.handler env ⟨manager, 0, []⟩) ∧ publishes (manager.handle env event).2 ≤ 3 := by
  obtain ⟨depth, deep⟩ := Nat.exists_eq_add_of_le' env.stack_deep
  let bottom := handleMatchStateUpdate env depth
  have whole : event.handler env = event.handlerWith env (nested env bottom 3) := by
    rw [← handlerWith_self, deep, handleMatchStateUpdate_nested]
  refine ⟨fun bottom' => ?_, ?_⟩
  · rw [whole]
    exact handlerWith_nested env clean ⟨manager, 0, []⟩ keyed bottom' bottom event
  · rw [MatchManager.handle, whole]
    exact publishes_handlerWith env clean bottom manager keyed event

theorem reentrance_bounded_filled :
    let own := getMatchID (.small 1) (.string "chess")
    let other := getMatchID (.small 2) (.string "chess")
    let manager : MatchManager Int :=
      { matchMap := (AList.insert own
          ⟨.small 1, 1, .string "chess", own, 0, [(.small 3, 1)], []⟩ ∅).insert other
            ⟨.small 2, 1, .string "chess", other, 0, [(.small 1, 1)], []⟩
        added := [5]
        matchAgent := ⟨.small 1, .joiningWaitingAck, 1, 0, some ["chess"], some other, some 7⟩ }
    (∀ bottom, Event.handlerWith (.still 1) (nested (.still 1) bottom 3)
        (.receive (.ack ⟨other, .small 4⟩)) ⟨manager, 0, []⟩ =
      Event.handler (.still 1) (.receive (.ack ⟨other, .small 4⟩)) ⟨manager, 0, []⟩) ∧
    publishes (manager.handle (.still 1) (.receive (.ack ⟨other, .small 4⟩))).2 = 3 := by
  intro own other manager
  have empty : MatchMap.Keyed (∅ : MatchMap Int) := AList.All.empty
  have keyed : manager.matchMap.Keyed := by
    refine AList.All.insert (AList.All.insert empty ?_) ?_ <;> rfl
  obtain ⟨same, bounded⟩ := reentrance_bounded (.still 1) rfl manager keyed
    (.receive (.ack ⟨other, .small 4⟩))
  exact ⟨same, bounded.antisymm (by decide +kernel)⟩

end RoundTable.Matcher
