import RoundTable.Shared.Script
import RoundTable.Matcher.Messages

set_option autoImplicit false

/-!
# The match manager

Handlers run on the state of one manager and append what an observer sees. A handler may end in
an exception, and what it has written by then stays written. A message that a manager sends is
handled by the manager itself before `send` returns, so handlers re-enter one another:
`handleMatchStateUpdate` is recursive in the depth of the call stack, and every other handler takes
the listener of the agent as an argument.
-/

namespace RoundTable.Matcher

open Script

inductive MatchAgentsStates where
  | idle
  | servingWaitingClaims
  | joiningWaitingAck
deriving DecidableEq

-- The identity of a function that a caller passes as `matchCallback`.
abbrev Callback := Nat

-- The constructor registers the listener of the agent before any other.
inductive MatchEventListener where
  | agent
  | extra (listener : Nat)
deriving DecidableEq

structure MatchAgent (Counter : Type) where
  id : PublicKey
  state : MatchAgentsStates
  counter : Counter
  lastActionStart : Int
  targetMatch : Option (List String)
  matchId : Option String
  matchCallback : Option Callback
deriving DecidableEq

abbrev MatchMap (Counter : Type) := AList (fun _ : String => MatchState Counter)

-- `added` are the listeners of `addMatchStateListener`, in order.
structure MatchManager (Counter : Type) where
  matchMap : MatchMap Counter
  added : List Nat
  matchAgent : MatchAgent Counter
deriving DecidableEq

def MatchManager.listeners {Counter : Type} (manager : MatchManager Counter) :
    List MatchEventListener :=
  .agent :: manager.added.map .extra

/-- What a manager does to the world around it. A callback is shown with the agent as it was. Neither
callbacks nor added listeners call back into the manager, which the script would let them do in the
middle of the event. -/
inductive Output (Counter : Type) where
  | publish (msg : Message Counter)
  | callback (agent : MatchAgent Counter) (matchCallback : Callback)
      (result : Option (MatchState Counter))
  | listener (listener : Nat) (matchState : Option (MatchState Counter))
deriving DecidableEq

/-- What the world decides while a manager handles one event: the clock readings, the order that
sorting by a random comparison leaves, whether a callback throws, and how deep calls may nest. -/
structure Env (Counter : Type) where
  realm : Realm
  clock : Nat → Int
  shuffle : Nat → List (MatchState Counter) → List (MatchState Counter)
  shuffle_perm : ∀ query items, (shuffle query items).Perm items
  callbackThrows : Nat → Bool
  stack : Nat
  stack_deep : 3 ≤ stack

inductive Exception where
  | typeError
  | rangeError
  | callback
deriving DecidableEq

structure Turn (Counter : Type) where
  manager : MatchManager Counter
  queries : Nat
  outputs : List (Output Counter)

abbrev Handler (Counter : Type) := EStateM Exception (Turn Counter)

section Handlers

variable {Counter : Type}

def getManager : Handler Counter (MatchManager Counter) :=
  fun turn => .ok turn.manager turn

def getAgent : Handler Counter (MatchAgent Counter) :=
  fun turn => .ok turn.manager.matchAgent turn

def setAgent (update : MatchAgent Counter → MatchAgent Counter) : Handler Counter Unit :=
  fun turn => .ok () { turn with manager.matchAgent := update turn.manager.matchAgent }

def getMap : Handler Counter (MatchMap Counter) :=
  fun turn => .ok turn.manager.matchMap turn

def setMap (update : MatchMap Counter → MatchMap Counter) : Handler Counter Unit :=
  fun turn => .ok () { turn with manager.matchMap := update turn.manager.matchMap }

def emit (output : Output Counter) : Handler Counter Unit :=
  fun turn => .ok () { turn with outputs := turn.outputs ++ [output] }

def query {α : Type} (answer : Nat → α) : Handler Counter α :=
  fun turn => .ok (answer turn.queries) { turn with queries := turn.queries + 1 }

def getTime (env : Env Counter) : Handler Counter Int :=
  query env.clock

-- `for (x in xs) if (found(x)) return true`: an inherited number has none of the fields that
-- `found` reads.
def anyIn {α : Type} (found : α → Bool) : List (Visited α) → Handler Counter Bool
  | [] => return false
  | .own value :: rest => if found value then return true else anyIn found rest
  | .inherited _ :: _ => throw .typeError

abbrev UpdateHandler (Counter : Type) := Option (MatchState Counter) → Handler Counter Unit

section StateManager

variable (env : Env Counter) (agentListener : UpdateHandler Counter)

def callListener (matchState : Option (MatchState Counter)) :
    Visited MatchEventListener → Handler Counter Unit
  | .own .agent => agentListener matchState
  | .own (.extra listener) => emit (.listener listener matchState)
  | .inherited _ => throw .typeError

-- The loop of `raiseUpdateEvent`, which reads the map again for each listener.
def notify (matchId : String) : List (Visited MatchEventListener) → Handler Counter Unit
  | [] => pure ()
  | listener :: rest => do
    try
      callListener agentListener ((← getMap).lookup matchId) listener
    catch _ => pure ()
    notify matchId rest

def raiseUpdateEvent (matchId : String) : Handler Counter Unit := do
  notify agentListener matchId (env.realm.forIn (← getManager).listeners)

def remove (matchId : String) : Handler Counter Unit :=
  setMap fun map => map.erase matchId

def handleAdvertiseMessage (msg : MatchAdvertiseMessage Counter) : Handler Counter Unit := do
  let matchId := getMatchID msg.advertiser msg.match_
  let entry := (← getMap).lookup matchId
  let lastSeen ← getTime env
  match entry with
  | some matchState => setMap fun map => map.insert matchId { matchState with lastSeen }
  | none =>
    setMap fun map =>
      map.insert matchId (MatchState.new msg.advertiser msg.counter msg.match_ lastSeen)
  raiseUpdateEvent env agentListener matchId

def handleUnadvertiseMessage (msg : MatchUnadvertiseMessage) : Handler Counter Unit :=
  remove msg.matchId

def handleClaimMessage (msg : MatchClaimMessage Counter) : Handler Counter Unit := do
  match (← getMap).lookup msg.matchId with
  | none => pure ()
  | some matchState =>
    if ← anyIn (fun claim => claim.1 = msg.user) (env.realm.forIn matchState.claimsSeen) then
      return
    setMap fun map => map.insert msg.matchId (matchState.pushClaim msg.user msg.counter)
    raiseUpdateEvent env agentListener msg.matchId

def handleAckMessage (msg : MatchAckMessage) : Handler Counter Unit := do
  match (← getMap).lookup msg.matchId with
  | none => pure ()
  | some matchState =>
    if ← anyIn (fun user => user = msg.user) (env.realm.forIn matchState.acksSeen) then
      return
    setMap fun map => map.insert msg.matchId (matchState.pushAck msg.user)
    raiseUpdateEvent env agentListener msg.matchId
    remove msg.matchId

-- The four `_handle` methods of the manager. Their `catch` swallows every exception.
def handleMessage (msg : Message Counter) : Handler Counter Unit := do
  try
    match msg with
    | .advertise msg => handleAdvertiseMessage env agentListener msg
    | .unadvertise msg => handleUnadvertiseMessage msg
    | .claim msg => handleClaimMessage env agentListener msg
    | .ack msg => handleAckMessage env agentListener msg
  catch _ => pure ()

-- The four `send` methods of the manager: publish, then handle the message locally.
def sendMessage (msg : Message Counter) : Handler Counter Unit := do
  emit (.publish msg)
  handleMessage env agentListener msg

end StateManager

def matchCallback (env : Env Counter) (result : Option (MatchState Counter)) :
    Handler Counter Unit := do
  let agent ← getAgent
  match agent.matchCallback with
  | none => pure ()
  | some callback =>
    emit (.callback agent callback result)
    if ← query env.callbackThrows then throw .callback

def MatchAgent.clear (agent : MatchAgent Counter) : MatchAgent Counter :=
  { agent with state := .idle, matchId := none, targetMatch := none, matchCallback := none }

@[simp] theorem clear_matchCallback (agent : MatchAgent Counter) :
    agent.clear.matchCallback = none := rfl

@[simp] theorem clear_clear (agent : MatchAgent Counter) : agent.clear.clear = agent.clear := rfl

def clearState : Handler Counter Unit :=
  setAgent MatchAgent.clear

def joinable (targetMatch : List String) (id : PublicKey) (match_ : MatchState Counter) : Bool :=
  targetMatch.any (fun target => match_.match_ = .string target) && match_.advertiser ≠ id &&
    match_.acksSeen.isEmpty

def firstJoinable (targetMatch : List String) (id : PublicKey) :
    List (Visited (MatchState Counter)) → Handler Counter (Option (MatchState Counter))
  | [] => return none
  | .own match_ :: rest =>
    if joinable targetMatch id match_ then return some match_
    else firstJoinable targetMatch id rest
  | .inherited _ :: _ => throw .typeError

-- `targetMatch[0]`.
def advertised : List String → MatchField
  | [] => .other "undefined"
  | target :: _ => .string target

section Agent

variable (env : Env Counter) (agentListener : UpdateHandler Counter)

def startMatch (targetMatch : List String) (counter : Counter) (callback : Callback) :
    Handler Counter Bool := do
  if (← getAgent).state ≠ .idle then return false
  setAgent fun agent =>
    { agent with
      counter
      targetMatch := some targetMatch
      matchCallback := some callback
      matchId := none }
  let id := (← getAgent).id
  let items := (← getMap).entries.map (·.2)
  let randomItems ← query fun n => env.shuffle n items
  match ← firstJoinable targetMatch id (env.realm.forIn randomItems) with
  | some match_ =>
    setAgent fun agent => { agent with state := .joiningWaitingAck }
    let now ← getTime env
    setAgent fun agent => { agent with lastActionStart := now }
    sendMessage env agentListener (.claim ⟨match_.matchId, id, counter⟩)
    setAgent fun agent => { agent with matchId := some match_.matchId }
    return true
  | none =>
    let match_ := advertised targetMatch
    setAgent fun agent =>
      { agent with matchId := some (getMatchID id match_), state := .servingWaitingClaims }
    let now ← getTime env
    setAgent fun agent => { agent with lastActionStart := now }
    sendMessage env agentListener (.advertise ⟨id, match_, counter⟩)
    return true

def restartMatch : Handler Counter Unit := do
  let agent ← getAgent
  match agent.state, agent.targetMatch, agent.matchCallback with
  | .idle, _, _ | _, none, _ | _, _, none => return
  | _, some targetMatch, some callback =>
    setAgent fun agent => { agent with state := .idle }
    discard <| startMatch env agentListener targetMatch agent.counter callback

-- The conversion of a `string | null` to a condition.
def truthy : Option String → Option String
  | some "" => none
  | matchId => matchId

def stopMatch : Handler Counter Unit := do
  let agent ← getAgent
  match agent.state with
  | .idle => pure ()
  | .servingWaitingClaims =>
    if let some matchId := truthy agent.matchId then
      sendMessage env agentListener (.unadvertise ⟨matchId⟩)
    matchCallback env none
    clearState
  | .joiningWaitingAck =>
    matchCallback env none
    clearState

def complete (matchState : MatchState Counter) : Handler Counter Unit := do
  remove matchState.matchId
  try matchCallback env (some matchState) catch _ => pure ()
  clearState

end Agent

def handleMatchStateUpdate (env : Env Counter) : Nat → UpdateHandler Counter
  | 0, _ => throw .rangeError
  | _ + 1, none => throw .typeError
  | depth + 1, some matchState => do
    let agent ← getAgent
    if agent.matchId ≠ some matchState.matchId then return
    match agent.state with
    | .servingWaitingClaims =>
      match matchState.claimsSeen with
      | [] => return
      | (user, _) :: _ =>
        sendMessage env (handleMatchStateUpdate env depth) (.ack ⟨matchState.matchId, user⟩)
        -- Handling the ack changes this entry only on the way to a nested completion, and then
        -- there is no callback left to call.
        complete env matchState
    | .joiningWaitingAck =>
      match matchState.acksSeen with
      | [] => return
      | user :: _ =>
        if agent.id = user then complete env matchState
        else restartMatch env (handleMatchStateUpdate env depth)
    | .idle => return

def poll (env : Env Counter) (time : Int) : Handler Counter Unit := do
  let restart := restartMatch env (handleMatchStateUpdate env env.stack)
  let agent ← getAgent
  match agent.state with
  | .servingWaitingClaims =>
    if time - agent.lastActionStart > servingRebroadcastTimeout then restart
  | .joiningWaitingAck =>
    let timedOut := time - agent.lastActionStart > claimAckTimeout
    match truthy agent.matchId with
    | none => if timedOut then restart
    | some matchId =>
      match (← getMap).lookup matchId with
      | none => restart
      | some matchState =>
        match matchState.acksSeen with
        | user :: _ => if user ≠ agent.id then restart
        | [] => if timedOut then restart
  | .idle => pure ()

-- The loop of `checkTimeouts`. To delete a key that the map only inherits deletes nothing.
def dropExpired (t : Int) : List (Visited String) → Handler Counter Unit
  | [] => pure ()
  | .own m :: rest => do
    if let some matchState := (← getMap).lookup m then
      if t - matchState.lastSeen > advertiseTimeout then remove m
    dropExpired t rest
  | .inherited _ :: rest => dropExpired t rest

-- The argument is not read: the handler takes the time from the clock.
def checkTimeouts (env : Env Counter) (_time : Int) : Handler Counter Unit := do
  let t ← getTime env
  dropExpired t (env.realm.forIn (← getMap).keys)

def addMatchStateListener (listener : Nat) : Handler Counter Unit :=
  fun turn => .ok () { turn with manager.added := turn.manager.added ++ [listener] }

end Handlers

inductive Event (Counter : Type) where
  | findMatch (targetMatch : List String) (counter : Counter) (callback : Callback)
  | stopMatch
  | poll (time : Int)
  | checkTimeouts (time : Int)
  | receive (msg : Message Counter)
  | receiveMalformed
  | addMatchListener (listener : Nat)

variable {Counter : Type}

def MatchManager.new [IntCast Counter] (id : PublicKey) : MatchManager Counter where
  matchMap := ∅
  added := []
  matchAgent :=
    { id
      state := .idle
      counter := ((0 : Int) : Counter)
      lastActionStart := 0
      targetMatch := none
      matchId := none
      matchCallback := none }

def Event.handler (env : Env Counter) : Event Counter → Handler Counter Unit
  | .findMatch targetMatch counter callback =>
    discard <| Matcher.startMatch env (handleMatchStateUpdate env env.stack) targetMatch counter
      callback
  | .stopMatch => Matcher.stopMatch env (handleMatchStateUpdate env env.stack)
  | .poll time => Matcher.poll env time
  | .checkTimeouts time => Matcher.checkTimeouts env time
  | .receive msg => handleMessage env (handleMatchStateUpdate env env.stack) msg
  | .receiveMalformed => pure ()
  | .addMatchListener listener => addMatchStateListener listener

def Handler.turn {α : Type} (handler : Handler Counter α) (turn : Turn Counter) : Turn Counter :=
  match handler turn with
  | .ok _ turn | .error _ turn => turn

def MatchManager.handle (manager : MatchManager Counter) (env : Env Counter)
    (event : Event Counter) : MatchManager Counter × List (Output Counter) :=
  let turn := (event.handler env).turn ⟨manager, 0, []⟩
  (turn.manager, turn.outputs)

end RoundTable.Matcher
