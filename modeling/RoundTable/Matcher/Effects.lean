import RoundTable.Matcher.Turns

set_option autoImplicit false

/-!
# What an event can do

`Inv` is the representation invariant of a manager between events. From a state that satisfies it,
`Effect` lists everything that one event can do.
-/

namespace RoundTable.Matcher

open Script

variable {Counter : Type}

def MatchAgent.Consistent (agent : MatchAgent Counter) : Prop :=
  match agent.state with
  | .idle => agent.matchId = none ∧ agent.targetMatch = none ∧ agent.matchCallback = none
  | .servingWaitingClaims =>
    ∃ targets callback, agent.targetMatch = some targets ∧
      agent.matchId = some (getMatchID agent.id (Matcher.advertised targets)) ∧
        agent.matchCallback = some callback
  | .joiningWaitingAck =>
    ∃ targets advertiser target callback, agent.targetMatch = some targets ∧ target ∈ targets ∧
      advertiser ≠ agent.id ∧ agent.matchId = some (getMatchID advertiser (.string target)) ∧
        agent.matchCallback = some callback

def MatchMap.Keyed (map : MatchMap Counter) : Prop :=
  map.All fun key entry => entry.matchId = key

structure MatchState.Sound (key : String) (entry : MatchState Counter) : Prop where
  keyed : entry.matchId = key
  identified : getMatchID entry.advertiser entry.match_ = key
  claimants : (entry.claimsSeen.map (·.1)).Nodup

structure MatchManager.Inv (manager : MatchManager Counter) : Prop where
  sound : manager.matchMap.All MatchState.Sound
  unacked : manager.matchMap.All fun _ entry => entry.acksSeen = []
  consistent : manager.matchAgent.Consistent
  unclaimed : manager.matchAgent.state = .servingWaitingClaims →
    manager.matchMap.All fun key entry =>
      manager.matchAgent.matchId = some key → entry.claimsSeen = []

theorem MatchManager.Inv.keyed {manager : MatchManager Counter} (inv : manager.Inv) :
    manager.matchMap.Keyed :=
  fun key entry held => (inv.sound key entry held).keyed

-- What reaches the network and the caller of the search.
def Output.visible : Output Counter → Bool
  | .listener _ _ => false
  | _ => true

def visible (outputs : List (Output Counter)) : List (Output Counter) :=
  outputs.filter Output.visible

@[simp] theorem visible_append (xs ys : List (Output Counter)) :
    visible (xs ++ ys) = visible xs ++ visible ys := List.filter_append ..

@[simp] theorem visible_nil : visible ([] : List (Output Counter)) = [] := rfl

@[simp] theorem visible_publish (msg : Message Counter) (rest : List (Output Counter)) :
    visible (.publish msg :: rest) = .publish msg :: visible rest := rfl

@[simp] theorem visible_callback (agent : MatchAgent Counter) (callback : Callback)
    (result : Option (MatchState Counter)) (rest : List (Output Counter)) :
    visible (.callback agent callback result :: rest) =
      .callback agent callback result :: visible rest := rfl

@[simp] theorem visible_tell (added : List Nat) (matchId : String) (turn : Turn Counter) :
    visible (turn.tell added matchId).outputs = visible turn.outputs := by
  simp [Turn.tell, visible, Output.visible]

def MatchState.acks (matchState : MatchState Counter) (user : PublicKey) : List (Output Counter) :=
  let ack := Output.publish (.ack ⟨matchState.matchId, user⟩)
  if user ∈ matchState.acksSeen then [ack] else [ack, ack]

def MatchState.acknowledged (matchState : MatchState Counter) (user : PublicKey) :
    MatchState Counter :=
  if user ∈ matchState.acksSeen then matchState else matchState.pushAck user

namespace MatchManager

def put (manager : MatchManager Counter) (entry : MatchState Counter) : MatchManager Counter :=
  { manager with matchMap := manager.matchMap.insert entry.matchId entry }

def drop (manager : MatchManager Counter) (matchId : String) : MatchManager Counter :=
  { manager with matchMap := manager.matchMap.erase matchId }

def clear (manager : MatchManager Counter) : MatchManager Counter :=
  { manager with matchAgent := manager.matchAgent.clear }

theorem drop_put (manager : MatchManager Counter) (entry : MatchState Counter) :
    (manager.put entry).drop entry.matchId = manager.drop entry.matchId := by
  simp [put, drop, AList.erase_insert_self]

@[simp] theorem clear_drop_drop (manager : MatchManager Counter) (matchId : String) :
    ((manager.drop matchId).clear).drop matchId = (manager.drop matchId).clear := by
  simp [clear, drop]

def joining (manager : MatchManager Counter) (targetMatch : List String) (counter : Counter)
    (callback : Callback) (lastActionStart : Int) (entry : MatchState Counter) :
    MatchManager Counter :=
  let id := manager.matchAgent.id
  { manager with
    matchMap :=
      if entry.claimsSeen.any (fun claim => claim.1 = id) then manager.matchMap
      else manager.matchMap.insert entry.matchId (entry.pushClaim id counter)
    matchAgent :=
      { id
        state := .joiningWaitingAck
        counter
        lastActionStart
        targetMatch := some targetMatch
        matchId := some entry.matchId
        matchCallback := some callback } }

def advert (manager : MatchManager Counter) (targetMatch : List String) (counter : Counter) :
    MatchAdvertiseMessage Counter :=
  ⟨manager.matchAgent.id, advertised targetMatch, counter⟩

def serving (manager : MatchManager Counter) (targetMatch : List String) (counter : Counter)
    (callback : Callback) (lastActionStart : Int) (entry : MatchState Counter) :
    MatchManager Counter :=
  { manager.put entry with
    matchAgent :=
      { id := manager.matchAgent.id
        state := .servingWaitingClaims
        counter
        lastActionStart
        targetMatch := some targetMatch
        matchId := some entry.matchId
        matchCallback := some callback } }

end MatchManager

inductive Search (manager : MatchManager Counter) (targetMatch : List String) (counter : Counter)
    (callback : Callback) : List (Output Counter) → MatchManager Counter → Prop where
  | join (entry : MatchState Counter) (now : Int)
      (held : manager.matchMap.lookup entry.matchId = some entry)
      (open_ : joinable targetMatch manager.matchAgent.id entry = true) :
      Search manager targetMatch counter callback
        [.publish (.claim ⟨entry.matchId, manager.matchAgent.id, counter⟩)]
        (manager.joining targetMatch counter callback now entry)
  | serve (entry : MatchState Counter) (now seen : Int)
      (closed : ∀ key held, manager.matchMap.lookup key = some held →
        joinable targetMatch manager.matchAgent.id held = false)
      (own : entry = manager.matchMap.advertised (manager.advert targetMatch counter) seen)
      (unclaimed : entry.claimsSeen = []) :
      Search manager targetMatch counter callback
        [.publish (.advertise (manager.advert targetMatch counter))]
        (manager.serving targetMatch counter callback now entry)
  | fill (entry : MatchState Counter) (now seen : Int) (user : PublicKey) (claimCounter : Counter)
      (rest : List (PublicKey × Counter))
      (closed : ∀ key held, manager.matchMap.lookup key = some held →
        joinable targetMatch manager.matchAgent.id held = false)
      (own : entry = manager.matchMap.advertised (manager.advert targetMatch counter) seen)
      (claims : entry.claimsSeen = (user, claimCounter) :: rest) :
      Search manager targetMatch counter callback
        (.publish (.advertise (manager.advert targetMatch counter)) :: entry.acks user ++
          [.callback (manager.serving targetMatch counter callback now entry).matchAgent callback
            (some (entry.acknowledged user))])
        ((manager.serving targetMatch counter callback now entry).drop entry.matchId).clear

theorem advertised_matchId {map : MatchMap Counter} (keyed : map.Keyed)
    (msg : MatchAdvertiseMessage Counter) (seen : Int) :
    (map.advertised msg seen).matchId = getMatchID msg.advertiser msg.match_ := by
  unfold MatchMap.advertised
  split
  next entry found => exact keyed _ entry found
  next => rfl

namespace MatchManager

def RestartDue (manager : MatchManager Counter) (time : Int) : Prop :=
  match manager.matchAgent.state with
  | .idle => False
  | .servingWaitingClaims => time - manager.matchAgent.lastActionStart > servingRebroadcastTimeout
  | .joiningWaitingAck =>
    (∀ matchId, manager.matchAgent.matchId = some matchId → manager.matchMap.lookup matchId = none) ∨
      time - manager.matchAgent.lastActionStart > claimAckTimeout

-- The events that change nothing and show nothing.
def Quiet (manager : MatchManager Counter) : Event Counter → Prop
  | .findMatch _ _ _ => manager.matchAgent.state ≠ .idle
  | .stopMatch => manager.matchAgent.state = .idle
  | .poll time => ¬manager.RestartDue time
  | .receive (.claim msg) => ∀ entry, manager.matchMap.lookup msg.matchId = some entry →
      ∃ claim ∈ entry.claimsSeen, claim.1 = msg.user
  | .receive (.ack msg) => manager.matchMap.lookup msg.matchId = none
  | .receiveMalformed => True
  | _ => False

def Serves (manager : MatchManager Counter) (matchId : String) : Prop :=
  manager.matchAgent.state = .servingWaitingClaims ∧ manager.matchAgent.matchId = some matchId

def Joins (manager : MatchManager Counter) (matchId : String) : Prop :=
  manager.matchAgent.state = .joiningWaitingAck ∧ manager.matchAgent.matchId = some matchId

end MatchManager

theorem RestartDue.busy {manager : MatchManager Counter} {time : Int}
    (due : manager.RestartDue time) : manager.matchAgent.state ≠ .idle := by
  intro idle
  simp [MatchManager.RestartDue, idle] at due

def MatchState.fresh (t : Int) (entry : MatchState Counter) : Bool :=
  t - entry.lastSeen ≤ advertiseTimeout

inductive Effect (manager : MatchManager Counter) :
    Event Counter → List (Output Counter) → MatchManager Counter → Prop where
  | quiet (event : Event Counter) (quiet : manager.Quiet event) : Effect manager event [] manager
  | listening (listener : Nat) :
      Effect manager (.addMatchListener listener) []
        { manager with added := manager.added ++ [listener] }
  | expired (time now : Int) (map : MatchMap Counter)
      (fresh : ∀ key, map.lookup key =
        (manager.matchMap.lookup key).filter (MatchState.fresh now)) :
      Effect manager (.checkTimeouts time) [] { manager with matchMap := map }
  | advertised (msg : MatchAdvertiseMessage Counter) (seen : Int) :
      Effect manager (.receive (.advertise msg)) []
        (manager.put (manager.matchMap.advertised msg seen))
  | withdrawn (matchId : String) :
      Effect manager (.receive (.unadvertise ⟨matchId⟩)) [] (manager.drop matchId)
  | claimed (entry : MatchState Counter) (user : PublicKey) (counter : Counter)
      (held : manager.matchMap.lookup entry.matchId = some entry)
      (first : ∀ claim ∈ entry.claimsSeen, claim.1 ≠ user)
      (elsewhere : ¬manager.Serves entry.matchId) :
      Effect manager (.receive (.claim ⟨entry.matchId, user, counter⟩)) []
        (manager.put (entry.pushClaim user counter))
  | hosted (entry : MatchState Counter) (user : PublicKey) (counter : Counter)
      (callback : Callback) (held : manager.matchMap.lookup entry.matchId = some entry)
      (first : entry.claimsSeen = []) (serves : manager.Serves entry.matchId)
      (waiting : manager.matchAgent.matchCallback = some callback) :
      Effect manager (.receive (.claim ⟨entry.matchId, user, counter⟩))
        [.publish (.ack ⟨entry.matchId, user⟩), .publish (.ack ⟨entry.matchId, user⟩),
          .callback manager.matchAgent callback
            (some ((entry.pushClaim user counter).pushAck user))]
        (manager.drop entry.matchId).clear
  | filled (entry : MatchState Counter) (user : PublicKey)
      (held : manager.matchMap.lookup entry.matchId = some entry)
      (elsewhere : ¬manager.Joins entry.matchId) :
      Effect manager (.receive (.ack ⟨entry.matchId, user⟩)) [] (manager.drop entry.matchId)
  | joined (entry : MatchState Counter) (callback : Callback)
      (held : manager.matchMap.lookup entry.matchId = some entry)
      (joins : manager.Joins entry.matchId)
      (waiting : manager.matchAgent.matchCallback = some callback) :
      Effect manager (.receive (.ack ⟨entry.matchId, manager.matchAgent.id⟩))
        [.callback manager.matchAgent callback (some (entry.pushAck manager.matchAgent.id))]
        (manager.drop entry.matchId).clear
  | passedOver (entry : MatchState Counter) (user : PublicKey) (targetMatch : List String)
      (callback : Callback) (actions : List (Output Counter)) (after : MatchManager Counter)
      (held : manager.matchMap.lookup entry.matchId = some entry)
      (joins : manager.Joins entry.matchId) (other : user ≠ manager.matchAgent.id)
      (targets : manager.matchAgent.targetMatch = some targetMatch)
      (waiting : manager.matchAgent.matchCallback = some callback)
      (search : Search (manager.put (entry.pushAck user)) targetMatch manager.matchAgent.counter
        callback actions after) :
      Effect manager (.receive (.ack ⟨entry.matchId, user⟩)) actions (after.drop entry.matchId)
  | started (targetMatch : List String) (counter : Counter) (callback : Callback)
      (actions : List (Output Counter)) (after : MatchManager Counter)
      (idle : manager.matchAgent.state = .idle)
      (search : Search manager targetMatch counter callback actions after) :
      Effect manager (.findMatch targetMatch counter callback) actions after
  | restarted (time : Int) (targetMatch : List String) (callback : Callback)
      (actions : List (Output Counter)) (after : MatchManager Counter)
      (due : manager.RestartDue time)
      (targets : manager.matchAgent.targetMatch = some targetMatch)
      (waiting : manager.matchAgent.matchCallback = some callback)
      (search : Search manager targetMatch manager.matchAgent.counter callback actions after) :
      Effect manager (.poll time) actions after
  | unadvertised (matchId : String) (callback : Callback) (throws : Bool)
      (serves : manager.Serves matchId)
      (waiting : manager.matchAgent.matchCallback = some callback) :
      Effect manager .stopMatch
        [.publish (.unadvertise ⟨matchId⟩), .callback manager.matchAgent callback none]
        (if throws then manager.drop matchId else (manager.drop matchId).clear)
  | stopped (callback : Callback) (throws : Bool)
      (joining : manager.matchAgent.state = .joiningWaitingAck)
      (waiting : manager.matchAgent.matchCallback = some callback) :
      Effect manager .stopMatch [.callback manager.matchAgent callback none]
        (if throws then manager else manager.clear)

-- A search reads nothing of the agent but its id.
theorem Search.of_idle {manager : MatchManager Counter} {targetMatch : List String}
    {counter : Counter} {callback : Callback} {actions : List (Output Counter)}
    {after : MatchManager Counter}
    (search : Search { manager with matchAgent := { manager.matchAgent with state := .idle } }
      targetMatch counter callback actions after) :
    Search manager targetMatch counter callback actions after := by
  cases search with
  | join entry now held open_ => exact .join entry now held open_
  | serve entry now seen closed own unclaimed => exact .serve entry now seen closed own unclaimed
  | fill entry now seen user claimCounter rest closed own claims =>
    exact .fill entry now seen user claimCounter rest closed own claims

theorem MatchAgent.Consistent.waits {agent : MatchAgent Counter} (consistent : agent.Consistent)
    (busy : agent.state ≠ .idle) :
    ∃ targetMatch callback matchId, agent.targetMatch = some targetMatch ∧
      agent.matchCallback = some callback ∧ agent.matchId = some matchId ∧ matchId ≠ "" := by
  unfold MatchAgent.Consistent at consistent
  cases state : agent.state with
  | idle => exact absurd state busy
  | servingWaitingClaims =>
    rw [state] at consistent
    obtain ⟨targets, callback, h1, h2, h3⟩ := consistent
    exact ⟨_, _, _, h1, h3, h2, getMatchID_ne_empty _ _⟩
  | joiningWaitingAck =>
    rw [state] at consistent
    obtain ⟨targets, advertiser, target, callback, h1, -, -, h2, h3⟩ := consistent
    exact ⟨_, _, _, h1, h3, h2, getMatchID_ne_empty _ _⟩

end RoundTable.Matcher
