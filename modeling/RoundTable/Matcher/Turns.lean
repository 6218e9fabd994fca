import RoundTable.Shared.Entries
import RoundTable.Matcher.Manager

set_option autoImplicit false

/-!
# Handlers without re-entrance

In a pristine realm every handler does what a function on turns does that calls no other handler
back. The functions below are those, and each `_run` theorem says so of one handler.
-/

namespace RoundTable.Matcher

open Script

variable {Counter : Type}

section Run

variable {α β : Type} (turn : Turn Counter)

@[simp] theorem bind_run (x : Handler Counter α) (f : α → Handler Counter β) :
    (x >>= f) turn =
      match x turn with
      | .ok a next => f a next
      | .error e next => .error e next := by
  change EStateM.bind x f turn = _
  unfold EStateM.bind
  cases x turn <;> rfl

@[simp] theorem pure_run (a : α) : (pure a : Handler Counter α) turn = .ok a turn := rfl

@[simp] theorem throw_run (e : Exception) :
    (throw e : Handler Counter α) turn = .error e turn := rfl

@[simp] theorem tryCatch_run (x : Handler Counter α) (f : Exception → Handler Counter α) :
    (tryCatch x f) turn =
      match x turn with
      | .ok a next => .ok a next
      | .error e next => f e next := by
  change EStateM.tryCatch x f turn = _
  unfold EStateM.tryCatch
  cases x turn <;> rfl

@[simp] theorem discard_run (x : Handler Counter α) :
    (discard x) turn =
      match x turn with
      | .ok _ next => .ok () next
      | .error e next => .error e next := by
  change EStateM.map (fun _ => ()) x turn = _
  unfold EStateM.map
  cases x turn <;> rfl

end Run

namespace Turn

def setAgent (update : MatchAgent Counter → MatchAgent Counter) (turn : Turn Counter) :
    Turn Counter :=
  { turn with manager.matchAgent := update turn.manager.matchAgent }

def setMap (update : MatchMap Counter → MatchMap Counter) (turn : Turn Counter) : Turn Counter :=
  { turn with manager.matchMap := update turn.manager.matchMap }

def emit (output : Output Counter) (turn : Turn Counter) : Turn Counter :=
  { turn with outputs := turn.outputs ++ [output] }

def asked (turn : Turn Counter) : Turn Counter :=
  { turn with queries := turn.queries + 1 }

section Fields

variable (turn : Turn Counter)
variable (onAgent : MatchAgent Counter → MatchAgent Counter)
variable (onMap : MatchMap Counter → MatchMap Counter) (output : Output Counter)

@[simp] theorem setAgent_matchAgent :
    (turn.setAgent onAgent).manager.matchAgent = onAgent turn.manager.matchAgent := rfl
@[simp] theorem setAgent_matchMap :
    (turn.setAgent onAgent).manager.matchMap = turn.manager.matchMap := rfl
@[simp] theorem setAgent_added : (turn.setAgent onAgent).manager.added = turn.manager.added := rfl
@[simp] theorem setAgent_outputs : (turn.setAgent onAgent).outputs = turn.outputs := rfl
@[simp] theorem setAgent_queries : (turn.setAgent onAgent).queries = turn.queries := rfl
@[simp] theorem setMap_matchAgent :
    (turn.setMap onMap).manager.matchAgent = turn.manager.matchAgent := rfl
@[simp] theorem setMap_matchMap :
    (turn.setMap onMap).manager.matchMap = onMap turn.manager.matchMap := rfl
@[simp] theorem setMap_added : (turn.setMap onMap).manager.added = turn.manager.added := rfl
@[simp] theorem setMap_const (map : MatchMap Counter) :
    (turn.setMap onMap).setMap (fun _ => map) = turn.setMap fun _ => map := rfl
@[simp] theorem setMap_outputs : (turn.setMap onMap).outputs = turn.outputs := rfl
@[simp] theorem setMap_queries : (turn.setMap onMap).queries = turn.queries := rfl
@[simp] theorem emit_manager : (turn.emit output).manager = turn.manager := rfl
@[simp] theorem emit_outputs : (turn.emit output).outputs = turn.outputs ++ [output] := rfl
@[simp] theorem emit_queries : (turn.emit output).queries = turn.queries := rfl
@[simp] theorem asked_manager : turn.asked.manager = turn.manager := rfl
@[simp] theorem asked_outputs : turn.asked.outputs = turn.outputs := rfl
@[simp] theorem asked_queries : turn.asked.queries = turn.queries + 1 := rfl

end Fields

end Turn

section Run

variable {α : Type} (turn : Turn Counter)

@[simp] theorem getManager_run : getManager turn = .ok turn.manager turn := rfl
@[simp] theorem getAgent_run : getAgent turn = .ok turn.manager.matchAgent turn := rfl
@[simp] theorem getMap_run : getMap turn = .ok turn.manager.matchMap turn := rfl
@[simp] theorem setAgent_run (update : MatchAgent Counter → MatchAgent Counter) :
    setAgent update turn = .ok () (turn.setAgent update) := rfl
@[simp] theorem setMap_run (update : MatchMap Counter → MatchMap Counter) :
    setMap update turn = .ok () (turn.setMap update) := rfl
@[simp] theorem emit_run (output : Output Counter) :
    emit output turn = .ok () (turn.emit output) := rfl
@[simp] theorem query_run (answer : Nat → α) :
    query answer turn = .ok (answer turn.queries) turn.asked := rfl

end Run

namespace Turn

-- The other listeners hear of an entry after the listener of the agent has run.
def tell (added : List Nat) (matchId : String) (turn : Turn Counter) : Turn Counter :=
  { turn with
    outputs := turn.outputs ++
      added.map fun listener => .listener listener (turn.manager.matchMap.lookup matchId) }

@[simp] theorem tell_manager (added : List Nat) (matchId : String) (turn : Turn Counter) :
    (turn.tell added matchId).manager = turn.manager := rfl

def raise (update : Option (MatchState Counter) → Turn Counter → Turn Counter) (matchId : String)
    (turn : Turn Counter) : Turn Counter :=
  (update (turn.manager.matchMap.lookup matchId) turn).tell turn.manager.added matchId

end Turn

theorem notify_added (agentListener : UpdateHandler Counter) (matchId : String)
    (added : List Nat) (turn : Turn Counter) :
    notify agentListener matchId (added.map (Visited.own ∘ MatchEventListener.extra)) turn =
      .ok () (turn.tell added matchId) := by
  induction added generalizing turn with
  | nil => simp [notify, Turn.tell]
  | cons listener rest ih =>
    simp [notify, callListener, ih, Turn.tell, Turn.emit]

theorem raiseUpdateEvent_run (env : Env Counter) (clean : env.realm = .pristine)
    (agentListener : UpdateHandler Counter) (matchId : String) (turn : Turn Counter) :
    raiseUpdateEvent env agentListener matchId turn =
      .ok () (turn.raise (fun matchState => (agentListener matchState).turn) matchId) := by
  simp only [raiseUpdateEvent, bind_run, getManager_run, clean, Realm.forIn_pristine,
    MatchManager.listeners, List.map_cons, List.map_map, notify, tryCatch_run, getMap_run,
    callListener, Turn.raise, Handler.turn]
  cases agentListener (turn.manager.matchMap.lookup matchId) turn <;>
    simp only [pure_run, notify_added]

theorem anyIn_run {α : Type} (found : α → Bool) (xs : List α) (turn : Turn Counter) :
    anyIn found (xs.map .own) turn = .ok (xs.any found) turn := by
  induction xs with
  | nil => rfl
  | cons x xs ih => by_cases hit : found x <;> simp [anyIn, hit, ih]

theorem firstJoinable_run (targetMatch : List String) (id : PublicKey)
    (items : List (MatchState Counter)) (turn : Turn Counter) :
    firstJoinable targetMatch id (items.map .own) turn =
      .ok (items.find? (joinable targetMatch id)) turn := by
  induction items with
  | nil => rfl
  | cons item items ih =>
    by_cases hit : joinable targetMatch id item <;> simp [firstJoinable, hit, ih]

@[simp] theorem remove_run (matchId : String) (turn : Turn Counter) :
    remove matchId turn = .ok () (turn.setMap (·.erase matchId)) := rfl

abbrev Update (Counter : Type) := Option (MatchState Counter) → Turn Counter → Turn Counter

-- The entry for an advertised match once the advert has been handled.
def MatchMap.advertised (map : MatchMap Counter) (msg : MatchAdvertiseMessage Counter)
    (lastSeen : Int) : MatchState Counter :=
  match map.lookup (getMatchID msg.advertiser msg.match_) with
  | some matchState => { matchState with lastSeen }
  | none => MatchState.new msg.advertiser msg.counter msg.match_ lastSeen

namespace Turn

def handleAdvertise (env : Env Counter) (update : Update Counter)
    (msg : MatchAdvertiseMessage Counter) (turn : Turn Counter) : Turn Counter :=
  let matchId := getMatchID msg.advertiser msg.match_
  let entry := turn.manager.matchMap.advertised msg (env.clock turn.queries)
  (turn.asked.setMap (·.insert matchId entry)).raise update matchId

def handleClaim (update : Update Counter) (msg : MatchClaimMessage Counter)
    (turn : Turn Counter) : Turn Counter :=
  match turn.manager.matchMap.lookup msg.matchId with
  | none => turn
  | some matchState =>
    if matchState.claimsSeen.any (fun claim => claim.1 = msg.user) then turn
    else
      (turn.setMap (·.insert msg.matchId (matchState.pushClaim msg.user msg.counter))).raise
        update msg.matchId

def handleAck (update : Update Counter) (msg : MatchAckMessage) (turn : Turn Counter) :
    Turn Counter :=
  match turn.manager.matchMap.lookup msg.matchId with
  | none => turn
  | some matchState =>
    if matchState.acksSeen.any (fun user => user = msg.user) then turn
    else
      ((turn.setMap (·.insert msg.matchId (matchState.pushAck msg.user))).raise
        update msg.matchId).setMap (·.erase msg.matchId)

def handleMessage (env : Env Counter) (update : Update Counter) :
    Message Counter → Turn Counter → Turn Counter
  | .advertise msg => handleAdvertise env update msg
  | .unadvertise msg => setMap (·.erase msg.matchId)
  | .claim msg => handleClaim update msg
  | .ack msg => handleAck update msg

def sendMessage (env : Env Counter) (update : Update Counter) (msg : Message Counter)
    (turn : Turn Counter) : Turn Counter :=
  (turn.emit (.publish msg)).handleMessage env update msg

def callback (result : Option (MatchState Counter)) (turn : Turn Counter) : Turn Counter :=
  match turn.manager.matchAgent.matchCallback with
  | none => turn
  | some callback => (turn.emit (.callback turn.manager.matchAgent callback result)).asked

def clearState (turn : Turn Counter) : Turn Counter :=
  turn.setAgent MatchAgent.clear

def complete (matchState : MatchState Counter) (turn : Turn Counter) : Turn Counter :=
  ((turn.setMap (·.erase matchState.matchId)).callback (some matchState)).clearState

end Turn

section StateManager

variable (env : Env Counter) (clean : env.realm = .pristine) (agentListener : UpdateHandler Counter)
variable (turn : Turn Counter)

include clean

theorem handleMessage_run (msg : Message Counter) :
    handleMessage env agentListener msg turn =
      .ok () (turn.handleMessage env (fun matchState => (agentListener matchState).turn) msg) := by
  cases msg with
  | advertise msg =>
    simp only [handleMessage, handleAdvertiseMessage, getTime, tryCatch_run, bind_run, getMap_run,
      query_run, Turn.handleMessage, Turn.handleAdvertise, MatchMap.advertised]
    cases found : turn.manager.matchMap.lookup (getMatchID msg.advertiser msg.match_) <;>
      simp [raiseUpdateEvent_run env clean]
  | unadvertise msg => rfl
  | claim msg =>
    simp only [handleMessage, handleClaimMessage, tryCatch_run, bind_run, getMap_run,
      Turn.handleMessage, Turn.handleClaim]
    cases found : turn.manager.matchMap.lookup msg.matchId with
    | none => rfl
    | some matchState =>
      by_cases seen : matchState.claimsSeen.any (fun claim => claim.1 = msg.user) <;>
        simp [clean, anyIn_run, seen, raiseUpdateEvent_run env clean]
  | ack msg =>
    simp only [handleMessage, handleAckMessage, tryCatch_run, bind_run, getMap_run,
      Turn.handleMessage, Turn.handleAck]
    cases found : turn.manager.matchMap.lookup msg.matchId with
    | none => rfl
    | some matchState =>
      by_cases seen : matchState.acksSeen.any (fun user => user = msg.user) <;>
        simp [clean, anyIn_run, seen, raiseUpdateEvent_run env clean]

theorem sendMessage_run (msg : Message Counter) :
    sendMessage env agentListener msg turn =
      .ok () (turn.sendMessage env (fun matchState => (agentListener matchState).turn) msg) := by
  simp [sendMessage, handleMessage_run env clean, Turn.sendMessage]

end StateManager

theorem matchCallback_turn (env : Env Counter) (result : Option (MatchState Counter))
    (turn : Turn Counter) : (matchCallback env result).turn turn = turn.callback result := by
  simp only [Handler.turn, matchCallback, bind_run, getAgent_run, Turn.callback]
  cases turn.manager.matchAgent.matchCallback with
  | none => rfl
  | some callback => by_cases throws : env.callbackThrows turn.queries <;> simp [Turn.emit, throws]

@[simp] theorem clearState_run (turn : Turn Counter) :
    clearState turn = .ok () turn.clearState := rfl

@[simp] theorem complete_run (env : Env Counter) (matchState : MatchState Counter)
    (turn : Turn Counter) :
    complete env matchState turn = .ok () (turn.complete matchState) := by
  have called := matchCallback_turn env (some matchState)
    (turn.setMap (·.erase matchState.matchId))
  simp only [Handler.turn] at called
  simp only [complete, bind_run, remove_run, tryCatch_run, Turn.complete, ← called]
  cases matchCallback env (some matchState) (turn.setMap (·.erase matchState.matchId)) <;> rfl

-- One call of the listener of the agent, with `nested` in place of the calls that it leads to.
def agentUpdate (env : Env Counter) (nested : UpdateHandler Counter) : UpdateHandler Counter
  | none => throw .typeError
  | some matchState => do
    let agent ← getAgent
    if agent.matchId ≠ some matchState.matchId then return
    match agent.state with
    | .servingWaitingClaims =>
      match matchState.claimsSeen with
      | [] => return
      | (user, _) :: _ =>
        sendMessage env nested (.ack ⟨matchState.matchId, user⟩)
        complete env matchState
    | .joiningWaitingAck =>
      match matchState.acksSeen with
      | [] => return
      | user :: _ =>
        if agent.id = user then complete env matchState
        else restartMatch env nested
    | .idle => return

theorem handleMatchStateUpdate_succ (env : Env Counter) (depth : Nat) :
    handleMatchStateUpdate env (depth + 1) =
      agentUpdate env (handleMatchStateUpdate env depth) := by
  funext matchState
  cases matchState <;> rfl

def UpdateHandler.update (listener : UpdateHandler Counter) : Update Counter :=
  fun matchState => (listener matchState).turn

theorem agentUpdate_some (env : Env Counter) (clean : env.realm = .pristine)
    (nested : UpdateHandler Counter) (matchState : MatchState Counter) (turn : Turn Counter) :
    UpdateHandler.update (agentUpdate env nested) (some matchState) turn =
      if turn.manager.matchAgent.matchId ≠ some matchState.matchId then turn
      else
        match turn.manager.matchAgent.state with
        | .servingWaitingClaims =>
          match matchState.claimsSeen with
          | [] => turn
          | (user, _) :: _ =>
            (turn.sendMessage env (UpdateHandler.update nested)
              (.ack ⟨matchState.matchId, user⟩)).complete matchState
        | .joiningWaitingAck =>
          match matchState.acksSeen with
          | [] => turn
          | user :: _ =>
            if turn.manager.matchAgent.id = user then turn.complete matchState
            else (restartMatch env nested).turn turn
        | .idle => turn := by
  rw [UpdateHandler.update, agentUpdate, Handler.turn]
  simp only [bind_run, getAgent_run]
  by_cases other : turn.manager.matchAgent.matchId ≠ some matchState.matchId
  · simp [other]
  · simp only [other, if_false]
    cases turn.manager.matchAgent.state with
    | idle => rfl
    | servingWaitingClaims =>
      cases matchState.claimsSeen with
      | nil => rfl
      | cons claim rest => simp [sendMessage_run env clean]; rfl
    | joiningWaitingAck =>
      cases matchState.acksSeen with
      | nil => rfl
      | cons user rest =>
        by_cases self : turn.manager.matchAgent.id = user
        · simp [self]
        · simp only [self, if_false]
          rfl

def Turn.update (env : Env Counter) (depth : Nat) : Update Counter :=
  fun matchState => (handleMatchStateUpdate env depth matchState).turn

theorem update_some (env : Env Counter) (clean : env.realm = .pristine) (depth : Nat)
    (matchState : MatchState Counter) (turn : Turn Counter) :
    turn.update env (depth + 1) (some matchState) =
      if turn.manager.matchAgent.matchId ≠ some matchState.matchId then turn
      else
        match turn.manager.matchAgent.state with
        | .servingWaitingClaims =>
          match matchState.claimsSeen with
          | [] => turn
          | (user, _) :: _ =>
            (turn.sendMessage env (Turn.update env depth)
              (.ack ⟨matchState.matchId, user⟩)).complete matchState
        | .joiningWaitingAck =>
          match matchState.acksSeen with
          | [] => turn
          | user :: _ =>
            if turn.manager.matchAgent.id = user then turn.complete matchState
            else (restartMatch env (handleMatchStateUpdate env depth)).turn turn
        | .idle => turn := by
  have called := agentUpdate_some env clean (handleMatchStateUpdate env depth) matchState turn
  rwa [← handleMatchStateUpdate_succ] at called

namespace Turn

/-- A host answers a claim. Handling the first ack completes the search, and the ack that the
nested completion sends finds the user already recorded. -/
def acknowledge (matchState : MatchState Counter) (user : PublicKey) (turn : Turn Counter) :
    Turn Counter :=
  let ack := Output.publish (.ack ⟨matchState.matchId, user⟩)
  if user ∈ matchState.acksSeen then (turn.emit ack).complete matchState
  else
    (((turn.emit ack).emit ack).complete (matchState.pushAck user)).tell
      turn.manager.added matchState.matchId

end Turn

theorem agentUpdate_acknowledge (env : Env Counter) (clean : env.realm = .pristine)
    (nested : UpdateHandler Counter) (turn : Turn Counter) (matchState : MatchState Counter)
    (user : PublicKey) (counter : Counter) (rest : List (PublicKey × Counter))
    (held : turn.manager.matchMap.lookup matchState.matchId = some matchState)
    (current : turn.manager.matchAgent.matchId = some matchState.matchId)
    (serving : turn.manager.matchAgent.state = .servingWaitingClaims)
    (claims : matchState.claimsSeen = (user, counter) :: rest) :
    UpdateHandler.update (agentUpdate env (agentUpdate env nested)) (some matchState) turn =
      turn.acknowledge matchState user := by
  rw [agentUpdate_some env clean]
  simp only [current, serving, claims, Turn.sendMessage, Turn.handleMessage, Turn.handleAck,
    Turn.emit_manager, held, ne_eq, not_true_eq_false, if_false, Turn.acknowledge]
  by_cases seen : user ∈ matchState.acksSeen
  · simp [seen]
  · simp only [List.any_eq_true, decide_eq_true_eq, exists_eq_right, seen, if_false, Turn.raise,
      Turn.setMap_matchMap, Turn.emit_manager, AList.lookup_insert]
    -- the nested update finds the same search still waiting, and acknowledges the claim again
    rw [agentUpdate_some env clean]
    simp [current, serving, claims, Turn.sendMessage, Turn.handleMessage, Turn.handleAck]
    simp only [Turn.complete, Turn.callback, Turn.setMap_matchAgent, Turn.emit_manager,
      pushAck_matchId]
    cases turn.manager.matchAgent.matchCallback <;>
      simp [Turn.clearState, Turn.tell, Turn.setAgent, Turn.setMap, Turn.emit, Turn.asked,
        AList.erase_insert_self]

theorem update_acknowledge (env : Env Counter) (clean : env.realm = .pristine)
    (depth : Nat) (turn : Turn Counter) (matchState : MatchState Counter) (user : PublicKey)
    (counter : Counter) (rest : List (PublicKey × Counter))
    (held : turn.manager.matchMap.lookup matchState.matchId = some matchState)
    (current : turn.manager.matchAgent.matchId = some matchState.matchId)
    (serving : turn.manager.matchAgent.state = .servingWaitingClaims)
    (claims : matchState.claimsSeen = (user, counter) :: rest) :
    turn.update env (depth + 2) (some matchState) = turn.acknowledge matchState user := by
  have called := agentUpdate_acknowledge env clean (handleMatchStateUpdate env depth) turn matchState
    user counter rest held current serving claims
  rwa [← handleMatchStateUpdate_succ, ← handleMatchStateUpdate_succ] at called

namespace Turn

def search (env : Env Counter) (update : Update Counter) (targetMatch : List String)
    (counter : Counter) (callback : Callback) (turn : Turn Counter) : Turn Counter :=
  let id := turn.manager.matchAgent.id
  let items := turn.manager.matchMap.entries.map (·.2)
  let begun := (turn.setAgent fun agent =>
    { agent with
      counter
      targetMatch := some targetMatch
      matchCallback := some callback
      matchId := none }).asked
  let lastActionStart := env.clock begun.queries
  match (env.shuffle turn.queries items).find? (joinable targetMatch id) with
  | some match_ =>
    ((begun.asked.setAgent fun agent =>
      { agent with state := .joiningWaitingAck, lastActionStart }).sendMessage env update
        (.claim ⟨match_.matchId, id, counter⟩)).setAgent
          fun agent => { agent with matchId := some match_.matchId }
  | none =>
    let match_ := advertised targetMatch
    (begun.asked.setAgent fun agent =>
      { agent with
        state := .servingWaitingClaims
        matchId := some (getMatchID id match_)
        lastActionStart }).sendMessage env update (.advertise ⟨id, match_, counter⟩)

end Turn

theorem startMatch_run (env : Env Counter) (clean : env.realm = .pristine)
    (agentListener : UpdateHandler Counter) (targetMatch : List String) (counter : Counter)
    (callback : Callback) (turn : Turn Counter)
    (idle : turn.manager.matchAgent.state = .idle) :
    startMatch env agentListener targetMatch counter callback turn =
      .ok true (turn.search env (fun matchState => (agentListener matchState).turn) targetMatch
        counter callback) := by
  simp only [startMatch, bind_run, getAgent_run, idle, ne_eq, not_true_eq_false, if_false,
    setAgent_run, getMap_run, query_run, clean, Realm.forIn_pristine, firstJoinable_run, Turn.search,
    Turn.setAgent_matchAgent, Turn.setAgent_matchMap, Turn.setAgent_queries, getTime]
  cases (env.shuffle turn.queries (turn.manager.matchMap.entries.map (·.2))).find?
      (joinable targetMatch turn.manager.matchAgent.id) <;>
    simp only [bind_run, setAgent_run, query_run, sendMessage_run env clean, pure_run] <;> rfl

theorem startMatch_refused (env : Env Counter) (agentListener : UpdateHandler Counter)
    (targetMatch : List String) (counter : Counter) (callback : Callback) (turn : Turn Counter)
    (busy : turn.manager.matchAgent.state ≠ .idle) :
    startMatch env agentListener targetMatch counter callback turn = .ok false turn := by
  simp [startMatch, busy]

theorem restartMatch_run (env : Env Counter) (clean : env.realm = .pristine)
    (agentListener : UpdateHandler Counter) (targetMatch : List String) (callback : Callback)
    (turn : Turn Counter) (busy : turn.manager.matchAgent.state ≠ .idle)
    (targets : turn.manager.matchAgent.targetMatch = some targetMatch)
    (waiting : turn.manager.matchAgent.matchCallback = some callback) :
    restartMatch env agentListener turn =
      .ok () ((turn.setAgent fun agent => { agent with state := .idle }).search env
        (fun matchState => (agentListener matchState).turn) targetMatch
          turn.manager.matchAgent.counter callback) := by
  simp only [restartMatch, bind_run, getAgent_run, targets, waiting]
  cases state : turn.manager.matchAgent.state with
  | idle => exact absurd state busy
  | servingWaitingClaims | joiningWaitingAck =>
    simp only [setAgent_run, discard_run]
    rw [startMatch_run env clean _ _ _ _ _ rfl]

end RoundTable.Matcher
