import RoundTable.Matcher.Acks
import RoundTable.Matcher.Reentrance

set_option autoImplicit false

namespace RoundTable.Matcher

open Script Reactive

variable {Counter : Type}

def Message.raises : Message Counter → Option String
  | .advertise msg => some (getMatchID msg.advertiser msg.match_)
  | .unadvertise _ => none
  | .claim msg => some msg.matchId
  | .ack msg => some msg.matchId

/-- What the agent does: it calls back, and sends messages. A message that it sends is handled at
once, and if this raises an update the agent answers it before the other listeners hear of it. -/
inductive AgentActs (added : List Nat) (heard : String → Option (MatchState Counter) → Prop) :
    List (Output Counter) → Prop where
  | nil : AgentActs added heard []
  | shown {outputs : List (Output Counter)} (acts : AgentActs added heard outputs)
      (output : Output Counter) (isVisible : output.visible = true) :
      AgentActs added heard (outputs ++ [output])
  | raised {outputs answer : List (Output Counter)} (acts : AgentActs added heard outputs)
      (msg : Message Counter) {matchId : String} (raises : msg.raises = some matchId)
      (answers : AgentActs added heard answer) (matchState : Option (MatchState Counter))
      (isHeard : added ≠ [] → heard matchId matchState) :
      AgentActs added heard (outputs ++ .publish msg ::
        (answer ++ added.map fun listener => .listener listener matchState))

/-- Handling a message does nothing, or raises one update of its match, of which all listeners hear
the same. -/
def Handled (added : List Nat) (heard : String → Option (MatchState Counter) → Prop)
    (msg : Message Counter) (outputs : List (Output Counter)) : Prop :=
  outputs = [] ∨ ∃ matchId answer matchState, msg.raises = some matchId ∧
    AgentActs added heard answer ∧ (added ≠ [] → heard matchId matchState) ∧
      outputs = answer ++ added.map fun listener => .listener listener matchState

def Event.Raises (added : List Nat) (heard : String → Option (MatchState Counter) → Prop) :
    Event Counter → List (Output Counter) → Prop
  | .receive msg => Handled added heard msg
  | _ => AgentActs added heard

def Entry (matchId : String) (matchState : Option (MatchState Counter)) : Prop :=
  ∃ entry, matchState = some entry ∧ entry.matchId = matchId

-- The listener of the agent, doing `missing` whenever it is called without an entry.
def updateOr (env : Env Counter) (missing : Handler Counter Unit) : Nat → UpdateHandler Counter
  | 0, _ => throw .rangeError
  | _ + 1, none => missing
  | depth + 1, some matchState => agentUpdate env (updateOr env missing depth) (some matchState)

/-- What the listener of the agent would do without an entry makes no difference, and the other
listeners hear the same entries. -/
structure HearsEntries (moment : Moment Counter) : Prop where
  agent : ∀ missing,
    let env := moment.input.env
    moment.input.event.handlerWith env (updateOr env missing env.stack) ⟨moment.before, 0, []⟩ =
      moment.input.event.handler env ⟨moment.before, 0, []⟩
  others : moment.input.event.Raises moment.before.added Entry moment.outputs

-- The events in which a search ends with a match.
def MatchManager.Ends (manager : MatchManager Counter) (event : Event Counter) : Prop :=
  manager.Fills event ∨ ∃ entry, manager.Joins entry.matchId ∧
    manager.matchMap.lookup entry.matchId = some entry ∧
      event = .receive (.ack ⟨entry.matchId, manager.matchAgent.id⟩)

section Grammar

variable {added : List Nat} {heard heard' : String → Option (MatchState Counter) → Prop}
variable {outputs outputs' : List (Output Counter)} {msg : Message Counter} {event : Event Counter}

theorem AgentActs.append (acts : AgentActs added heard outputs)
    (acts' : AgentActs added heard outputs') :
    AgentActs added heard (outputs ++ outputs') := by
  induction acts' with
  | nil => simpa using acts
  | shown _ output isVisible ih =>
    rw [← List.append_assoc]
    exact ih.shown output isVisible
  | raised _ msg raises answers matchState isHeard ih =>
    rw [← List.append_assoc]
    exact ih.raised msg raises answers matchState isHeard

theorem AgentActs.sent (acts : AgentActs added heard outputs)
    (handled : Handled added heard msg outputs') :
    AgentActs added heard (outputs ++ .publish msg :: outputs') := by
  obtain rfl | ⟨matchId, answer, matchState, raises, answers, isHeard, rfl⟩ := handled
  · exact acts.shown _ rfl
  · exact acts.raised msg raises answers matchState isHeard

theorem heard_of_called {listener : Nat} {matchId : String}
    {matchState matchState' : Option (MatchState Counter)}
    (isHeard : added ≠ [] → heard matchId matchState)
    (called : (.listener listener matchState' : Output Counter) ∈
      added.map fun listener => .listener listener matchState) : heard matchId matchState' := by
  obtain ⟨_, member, same⟩ := List.mem_map.mp called
  cases same
  exact isHeard (List.ne_nil_of_mem member)

theorem AgentActs.calls (acts : AgentActs added heard outputs) {listener : Nat}
    {matchState : Option (MatchState Counter)} (called : .listener listener matchState ∈ outputs) :
    ∃ matchId, heard matchId matchState := by
  induction acts with
  | nil => cases called
  | shown _ output isVisible ih =>
    rcases List.mem_append.mp called with earlier | last
    · exact ih earlier
    · rw [← List.mem_singleton.mp last] at isVisible
      cases isVisible
  | raised _ msg raises _ _ isHeard ih ihAnswer =>
    rcases List.mem_append.mp called with earlier | later
    · exact ih earlier
    · rcases List.mem_append.mp ((List.mem_cons.mp later).resolve_left (by simp)) with answer | told
      · exact ihAnswer answer
      · exact ⟨_, heard_of_called isHeard told⟩

theorem Event.Raises.calls (raises : event.Raises added heard outputs) {listener : Nat}
    {matchState : Option (MatchState Counter)} (called : .listener listener matchState ∈ outputs) :
    ∃ matchId, heard matchId matchState := by
  cases event with
  | receive msg =>
    obtain rfl | ⟨matchId, answer, _, -, answers, isHeard, rfl⟩ := raises
    · cases called
    · rcases List.mem_append.mp called with earlier | told
      · exact answers.calls earlier
      · exact ⟨_, heard_of_called isHeard told⟩
  | findMatch | stopMatch | poll | checkTimeouts | receiveMalformed | addMatchListener =>
    exact AgentActs.calls raises called

theorem AgentActs.unheard (acts : AgentActs [] heard outputs) : AgentActs [] heard' outputs := by
  induction acts with
  | nil => exact .nil
  | shown _ output isVisible ih => exact ih.shown output isVisible
  | raised _ msg raises _ matchState _ ih ihAnswer =>
    exact ih.raised msg raises ihAnswer matchState fun some => absurd rfl some

theorem Event.Raises.unheard (raises : event.Raises [] heard outputs) :
    event.Raises [] heard' outputs := by
  cases event with
  | receive msg =>
    obtain rfl | ⟨matchId, answer, matchState, isRaise, answers, -, rfl⟩ := raises
    · exact .inl rfl
    · exact .inr ⟨matchId, answer, matchState, isRaise, answers.unheard, fun some => absurd rfl some,
        rfl⟩
  | findMatch | stopMatch | poll | checkTimeouts | receiveMalformed | addMatchListener =>
    exact AgentActs.unheard raises

end Grammar

namespace Turn

variable {heard : String → Option (MatchState Counter) → Prop} {turn next : Turn Counter}
variable {msg : Message Counter} {matchId : String}

structure Leads (heard : String → Option (MatchState Counter) → Prop) (turn next : Turn Counter) :
    Prop where
  added : next.manager.added = turn.manager.added
  acts : ∃ outputs, next.outputs = turn.outputs ++ outputs ∧
    AgentActs turn.manager.added heard outputs

structure Tells (heard : String → Option (MatchState Counter) → Prop) (matchId : String)
    (turn next : Turn Counter) : Prop where
  added : next.manager.added = turn.manager.added
  told : ∃ answer matchState, AgentActs turn.manager.added heard answer ∧
    (turn.manager.added ≠ [] → heard matchId matchState) ∧
      next.outputs = turn.outputs ++
        (answer ++ turn.manager.added.map fun listener => .listener listener matchState)

structure Handles (heard : String → Option (MatchState Counter) → Prop) (msg : Message Counter)
    (turn next : Turn Counter) : Prop where
  added : next.manager.added = turn.manager.added
  handled : ∃ outputs, next.outputs = turn.outputs ++ outputs ∧
    Handled turn.manager.added heard msg outputs

namespace Leads

theorem refl (turn : Turn Counter) : Leads heard turn turn :=
  ⟨rfl, [], by simp, .nil⟩

theorem setMap (leads : Leads heard turn next) (update : MatchMap Counter → MatchMap Counter) :
    Leads heard turn (next.setMap update) :=
  ⟨leads.added, leads.acts⟩

theorem setAgent (leads : Leads heard turn next)
    (update : MatchAgent Counter → MatchAgent Counter) :
    Leads heard turn (next.setAgent update) :=
  ⟨leads.added, leads.acts⟩

theorem asked (leads : Leads heard turn next) : Leads heard turn next.asked :=
  ⟨leads.added, leads.acts⟩

theorem emit {output : Output Counter} (leads : Leads heard turn next)
    (isVisible : output.visible = true) : Leads heard turn (next.emit output) := by
  obtain ⟨added, outputs, reached, acts⟩ := leads
  exact ⟨added, outputs ++ [output], by rw [emit_outputs, reached, List.append_assoc],
    acts.shown output isVisible⟩

theorem callback (leads : Leads heard turn next) (result : Option (MatchState Counter)) :
    Leads heard turn (next.callback result) := by
  unfold Turn.callback
  split
  next => exact leads
  next => exact (leads.emit rfl).asked

theorem complete (leads : Leads heard turn next) (matchState : MatchState Counter) :
    Leads heard turn (next.complete matchState) :=
  ((leads.setMap _).callback _).setAgent _

theorem tell (leads : Leads heard turn next)
    (isHeard : heard matchId (next.manager.matchMap.lookup matchId)) :
    Tells heard matchId turn (next.tell turn.manager.added matchId) := by
  obtain ⟨added, outputs, reached, acts⟩ := leads
  exact ⟨added, outputs, _, acts, fun _ => isHeard, by rw [Turn.tell, reached, List.append_assoc]⟩

theorem sent {sending after : Turn Counter} (leads : Leads heard turn next)
    (handles : Handles heard msg sending after)
    (same : sending.manager.added = next.manager.added)
    (isSent : sending.outputs = next.outputs ++ [.publish msg]) : Leads heard turn after := by
  obtain ⟨added, outputs, reached, acts⟩ := leads
  obtain ⟨handledAdded, outputs', handledReached, handled⟩ := handles
  rw [same, added] at handledAdded handled
  refine ⟨handledAdded, _, ?_, acts.sent handled⟩
  rw [handledReached, isSent, reached]
  simp

end Leads

theorem Tells.handles (tells : Tells heard matchId turn next) (raises : msg.raises = some matchId) :
    Handles heard msg turn next := by
  obtain ⟨added, answer, matchState, answers, isHeard, reached⟩ := tells
  exact ⟨added, _, reached, .inr ⟨matchId, answer, matchState, raises, answers, isHeard, rfl⟩⟩

theorem Leads.acts_new {manager : MatchManager Counter} (leads : Leads heard ⟨manager, 0, []⟩ next) :
    AgentActs manager.added heard next.outputs := by
  obtain ⟨-, outputs, reached, acts⟩ := leads
  simpa [reached] using acts

theorem Handles.handled_new {manager : MatchManager Counter}
    (handles : Handles heard msg ⟨manager, 0, []⟩ next) :
    Handled manager.added heard msg next.outputs := by
  obtain ⟨-, outputs, reached, handled⟩ := handles
  simpa [reached] using handled

theorem Handles.refl (turn : Turn Counter) : Handles heard msg turn turn :=
  ⟨rfl, [], by simp, .inl rfl⟩

theorem Handles.of_setMap {update : MatchMap Counter → MatchMap Counter}
    (handles : Handles heard msg (turn.setMap update) next) : Handles heard msg turn next :=
  ⟨handles.added, handles.handled⟩

theorem Handles.setMap (handles : Handles heard msg turn next)
    (update : MatchMap Counter → MatchMap Counter) : Handles heard msg turn (next.setMap update) :=
  ⟨handles.added, handles.handled⟩

-- The match is gone by the time the nested raise gets to the other listeners.
theorem acknowledge_leads (turn : Turn Counter) (matchState : MatchState Counter) (user : PublicKey)
    (isHeard : heard matchState.matchId none) :
    Leads heard turn (turn.acknowledge matchState user) := by
  let ack : Output Counter := .publish (.ack ⟨matchState.matchId, user⟩)
  unfold acknowledge
  split
  next => exact ((Leads.refl turn).emit rfl).complete matchState
  next =>
    have raises : (Message.ack ⟨matchState.matchId, user⟩ : Message Counter).raises =
        some matchState.matchId := rfl
    have again : Leads heard (turn.emit ack)
        (((turn.emit ack).emit ack).complete (matchState.pushAck user)) :=
      ((Leads.refl _).emit rfl).complete _
    have told : Tells heard matchState.matchId (turn.emit ack)
        ((((turn.emit ack).emit ack).complete (matchState.pushAck user)).tell turn.manager.added
          matchState.matchId) := by
      refine again.tell ?_
      rw [complete_manager]
      simpa [MatchManager.drop, MatchManager.clear] using isHeard
    exact (Leads.refl turn).sent (told.handles raises) rfl rfl

structure EndsWith (entry : MatchState Counter) (turn next : Turn Counter) : Prop where
  added : next.manager.added = turn.manager.added
  gone : next.manager.matchMap.lookup entry.matchId = none
  leads : ∀ heard, heard entry.matchId none → Leads heard turn next

namespace EndsWith

theorem complete (matchState : MatchState Counter) (turn : Turn Counter) :
    EndsWith matchState turn (turn.complete matchState) := by
  refine ⟨?_, ?_, fun _ _ => (Leads.refl turn).complete matchState⟩ <;> rw [complete_manager]
  · rfl
  · simp [MatchManager.drop, MatchManager.clear]

theorem acknowledge (matchState : MatchState Counter) (user : PublicKey) (turn : Turn Counter) :
    EndsWith matchState turn (turn.acknowledge matchState user) := by
  refine ⟨?_, ?_, fun _ => turn.acknowledge_leads matchState user⟩ <;> rw [acknowledge_manager]
  · rfl
  · simp [MatchManager.drop, MatchManager.clear]

end EndsWith

end Turn

section Update

variable (env : Env Counter) (clean : env.realm = .pristine) (depth : Nat)
variable {heard : String → Option (MatchState Counter) → Prop} {update : Update Counter}
variable {turn : Turn Counter}

theorem raise_tells {key : String} {entry : MatchState Counter}
    (held : turn.manager.matchMap.lookup key = some entry)
    (quiet : update (some entry) turn = turn) (isHeard : heard key (some entry)) :
    Turn.Tells heard key turn (turn.raise update key) := by
  rw [Turn.raise, held, quiet]
  exact (Turn.Leads.refl turn).tell (held ▸ isHeard)

section Ends

variable {entry : MatchState Counter}
variable (held : turn.manager.matchMap.lookup entry.matchId = some entry)
variable (ends : Turn.EndsWith entry turn (update (some entry) turn))

include held ends

-- The raise that ends a search goes on to the other listeners, and has no entry for them.
theorem raise_ends_tells (isHeard : heard entry.matchId none) :
    Turn.Tells heard entry.matchId turn (turn.raise update entry.matchId) := by
  rw [Turn.raise, held]
  exact (ends.leads heard isHeard).tell (ends.gone ▸ isHeard)

theorem raise_ends_unheard {listener : Nat} (member : listener ∈ turn.manager.added) :
    .listener listener none ∈ (turn.raise update entry.matchId).outputs := by
  rw [Turn.raise, held]
  exact List.mem_append_right _ (List.mem_map.mpr ⟨listener, member, by rw [ends.gone]⟩)

end Ends

theorem fillsAtOnce_iff {targetMatch : List String} {counter : Counter} {seen : Int}
    (none : (env.shuffle turn.queries (turn.manager.matchMap.entries.map (·.2))).find?
      (joinable targetMatch turn.manager.matchAgent.id) = none) :
    turn.manager.FillsAtOnce targetMatch ↔
      (turn.manager.matchMap.advertised (turn.manager.advert targetMatch counter) seen).claimsSeen ≠
        [] := by
  constructor
  · intro filled
    obtain ⟨entry, held, claimed⟩ := filled.claimed
    simpa [MatchMap.advertised, MatchManager.advert, held] using claimed
  · intro claimed
    obtain ⟨entry, held, refreshed⟩ := advertised_held claimed
    refine ⟨fun key entry' held' => ?_, entry, held, ?_⟩
    · simpa using List.find?_eq_none.mp none entry' ((mem_shuffle env turn entry').mpr ⟨key, held'⟩)
    · rwa [refreshed] at claimed

theorem FillsAtOnce.finds_none {targetMatch : List String}
    (filled : turn.manager.FillsAtOnce targetMatch) :
    (env.shuffle turn.queries (turn.manager.matchMap.entries.map (·.2))).find?
      (joinable targetMatch turn.manager.matchAgent.id) = none := by
  refine List.find?_eq_none.mpr fun entry member => ?_
  obtain ⟨key, held⟩ := (mem_shuffle env turn entry).mp member
  simp [filled.closed key entry held]

include clean

theorem handleClaim_handles {entry : MatchState Counter} {user : PublicKey} {counter : Counter}
    (held : turn.manager.matchMap.lookup entry.matchId = some entry)
    (quiet : ¬turn.manager.Answers (entry.pushClaim user counter))
    (isHeard : heard entry.matchId (some (entry.pushClaim user counter))) :
    Turn.Handles heard (.claim ⟨entry.matchId, user, counter⟩) turn
      (turn.handleClaim (Turn.update env (depth + 1)) ⟨entry.matchId, user, counter⟩) := by
  simp only [Turn.handleClaim, held]
  split
  next => exact .refl turn
  next =>
    have raised := raise_tells (AList.lookup_insert _) (update_quiet env clean depth _
      (turn.setMap (·.insert entry.matchId (entry.pushClaim user counter))) quiet) isHeard
    exact (raised.handles rfl).of_setMap

theorem advertising_ends (targetMatch : List String) (counter : Counter) (callback : Callback)
    (none : (env.shuffle turn.queries (turn.manager.matchMap.entries.map (·.2))).find?
      (joinable targetMatch turn.manager.matchAgent.id) = none)
    (filled : turn.manager.FillsAtOnce targetMatch) :
    let raised := turn.advertising env targetMatch counter callback
    let entry := turn.manager.matchMap.advertised (turn.manager.advert targetMatch counter)
      (env.clock (turn.queries + 2))
    Turn.EndsWith entry raised (Turn.update env (depth + 2) (some entry) raised) := by
  intro raised entry
  obtain ⟨claim, rest, claims⟩ :=
    List.exists_cons_of_ne_nil ((fillsAtOnce_iff env none).mp filled)
  have held : raised.manager.matchMap.lookup entry.matchId = some entry := AList.lookup_insert _
  have acknowledged := update_acknowledge env clean depth raised entry claim.1 claim.2 rest held
    rfl rfl claims
  rw [acknowledged]
  exact .acknowledge entry claim.1 raised

theorem search_leads (targetMatch : List String) (counter : Counter) (callback : Callback)
    (keyed : turn.manager.matchMap.Keyed)
    (entries : ∀ entry : MatchState Counter, heard entry.matchId (some entry))
    (ends : turn.manager.FillsAtOnce targetMatch → ∀ matchId, heard matchId none) :
    Turn.Leads heard turn
      (turn.search env (Turn.update env (depth + 2)) targetMatch counter callback) := by
  cases found : (env.shuffle turn.queries (turn.manager.matchMap.entries.map (·.2))).find?
      (joinable targetMatch turn.manager.matchAgent.id) with
  | some entry =>
    have held := found_held env targetMatch turn keyed found
    simp only [Turn.search, found, Turn.sendMessage, Turn.handleMessage]
    refine ((Turn.Leads.refl turn).sent
      (handleClaim_handles env clean (depth + 1) ?held ?quiet (entries _)) ?same ?isSent).setAgent _
    case same => rfl
    case isSent => rfl
    case held => exact held
    case quiet => simp [MatchManager.Answers]
  | none =>
    let advert := turn.manager.advert targetMatch counter
    let entry := turn.manager.matchMap.advertised advert (env.clock (turn.queries + 2))
    let raised := turn.advertising env targetMatch counter callback
    have own : entry.matchId = getMatchID advert.advertiser advert.match_ :=
      advertised_matchId keyed advert _
    have reached : turn.search env (Turn.update env (depth + 2)) targetMatch counter callback =
        raised.raise (Turn.update env (depth + 2)) entry.matchId := by
      rw [own]
      exact search_raises env _ targetMatch counter callback turn keyed found
    have held : raised.manager.matchMap.lookup entry.matchId = some entry := AList.lookup_insert _
    have raises : (Message.advertise advert).raises = some entry.matchId := congrArg some own.symm
    have told : Turn.Tells heard entry.matchId raised
        (raised.raise (Turn.update env (depth + 2)) entry.matchId) := by
      by_cases filled : turn.manager.FillsAtOnce targetMatch
      · exact raise_ends_tells held
          (advertising_ends env clean depth targetMatch counter callback found filled)
          (ends filled _)
      · have unclaimed : entry.claimsSeen = [] := by
          simpa using mt (fillsAtOnce_iff env found).mpr filled
        exact raise_tells held
          (update_quiet env clean (depth + 1) entry raised fun answers => answers.2 unclaimed)
          (entries entry)
    rw [reached]
    exact (Turn.Leads.refl turn).sent (told.handles raises) rfl rfl

theorem search_unheard (targetMatch : List String) (counter : Counter) (callback : Callback)
    (keyed : turn.manager.matchMap.Keyed) (filled : turn.manager.FillsAtOnce targetMatch)
    {listener : Nat} (member : listener ∈ turn.manager.added) :
    .listener listener none ∈
      (turn.search env (Turn.update env (depth + 2)) targetMatch counter callback).outputs := by
  have found := FillsAtOnce.finds_none env filled
  have answered := advertising_ends env clean depth targetMatch counter callback found filled
  have own : _ = getMatchID turn.manager.matchAgent.id (advertised targetMatch) :=
    advertised_matchId keyed (turn.manager.advert targetMatch counter)
      (env.clock (turn.queries + 2))
  rw [search_raises env _ targetMatch counter callback turn keyed found, ← own]
  exact raise_ends_unheard (AList.lookup_insert _) answered member

section Restart

variable {targetMatch : List String} {callback : Callback}
variable (busy : turn.manager.matchAgent.state ≠ .idle)
variable (targets : turn.manager.matchAgent.targetMatch = some targetMatch)
variable (waiting : turn.manager.matchAgent.matchCallback = some callback)
variable (keyed : turn.manager.matchMap.Keyed)

include busy targets waiting keyed

theorem restart_leads (entries : ∀ entry : MatchState Counter, heard entry.matchId (some entry))
    (ends : turn.manager.FillsAtOnce targetMatch → ∀ matchId, heard matchId none) :
    Turn.Leads heard turn ((restartMatch env (handleMatchStateUpdate env (depth + 2))).turn turn) := by
  rw [Handler.turn, restartMatch_run env clean _ targetMatch callback turn busy targets waiting]
  have searched : Turn.Leads heard (turn.setAgent fun agent => { agent with state := .idle }) _ :=
    search_leads env clean depth targetMatch turn.manager.matchAgent.counter callback keyed entries
      fun filled => ends ⟨filled.closed, filled.claimed⟩
  exact ⟨searched.added, searched.acts⟩

theorem restart_unheard (filled : turn.manager.FillsAtOnce targetMatch) {listener : Nat}
    (member : listener ∈ turn.manager.added) :
    .listener listener none ∈
      ((restartMatch env (handleMatchStateUpdate env (depth + 2))).turn turn).outputs := by
  rw [Handler.turn, restartMatch_run env clean _ targetMatch callback turn busy targets waiting]
  have idle : (turn.setAgent fun agent => { agent with state := .idle }).manager.FillsAtOnce
      targetMatch := ⟨filled.closed, filled.claimed⟩
  refine search_unheard env clean depth targetMatch _ callback ?_ idle member
  exact keyed

end Restart

theorem stopMatch_leads (listener : UpdateHandler Counter) :
    Turn.Leads heard turn ((stopMatch env listener).turn turn) := by
  have ended {next : Turn Counter} (leads : Turn.Leads heard turn next) :
      Turn.Leads heard turn (Handler.turn (do matchCallback env none; clearState) next) := by
    have called := leads.callback none
    rw [← matchCallback_turn env, Handler.turn] at called
    rw [Handler.turn, bind_run]
    cases throws : matchCallback env none next with
    | ok _ _ =>
      rw [throws] at called
      exact called.setAgent _
    | error _ _ => rwa [throws] at called
  have start : Turn.Leads heard turn turn := .refl turn
  simp only [Handler.turn, stopMatch, bind_run, getAgent_run] at ended ⊢
  cases turn.manager.matchAgent.state with
  | idle => exact start
  | joiningWaitingAck =>
    simp only [bind_run]
    exact ended start
  | servingWaitingClaims =>
    cases truthy turn.manager.matchAgent.matchId with
    | none =>
      simp only [bind_run]
      exact ended start
    | some matchId =>
      simp only [bind_run, sendMessage_run env clean]
      exact ended ((start.emit rfl).setMap _)

end Update

theorem Search.keeps {manager after : MatchManager Counter} {targetMatch : List String}
    {counter : Counter} {callback : Callback} {actions : List (Output Counter)}
    (search : Search manager targetMatch counter callback actions after)
    (keyed : manager.matchMap.Keyed) {matchId : String} {held : MatchState Counter}
    (isHeld : manager.matchMap.lookup matchId = some held) :
    (∃ entry, after.matchMap.lookup matchId = some entry ∧ entry.matchId = matchId) ∨
      after.matchMap.lookup matchId = none ∧ manager.FillsAtOnce targetMatch := by
  have named := keyed _ _ isHeld
  have acks := search.acks
  cases search with
  | join entry now claimed open_ =>
    simp only [MatchManager.joining]
    split
    next => exact .inl ⟨held, isHeld, named⟩
    next =>
      rw [AList.lookup_insert_of]
      split
      next same => exact .inl ⟨_, rfl, same.symm⟩
      next => exact .inl ⟨held, isHeld, named⟩
  | serve entry now seen closed own unclaimed =>
    simp only [MatchManager.serving, MatchManager.put, AList.lookup_insert_of]
    split
    next same => exact .inl ⟨_, rfl, same.symm⟩
    next => exact .inl ⟨held, isHeld, named⟩
  | fill entry now seen user claimCounter rest closed own claims =>
    simp only [MatchManager.serving, MatchManager.put, MatchManager.drop, MatchManager.clear,
      AList.erase_insert_self, AList.lookup_erase_of]
    split
    next =>
      cases acks with
      | waits unfilled ends => simp [fills, Output.fills, MatchManager.serving] at ends
      | ends filled => exact .inr ⟨rfl, filled⟩
    next => exact .inl ⟨held, isHeld, named⟩

def Agree (listener listener' : UpdateHandler Counter) : Prop :=
  ∀ matchState turn, turn.manager.matchMap.Keyed →
    UpdateHandler.update listener (some matchState) turn =
      UpdateHandler.update listener' (some matchState) turn

section Agree

variable (env : Env Counter) (clean : env.realm = .pristine)
variable {listener listener' : UpdateHandler Counter} (agree : Agree listener listener')

include agree

theorem handleMessage_agrees (msg : Message Counter) (turn : Turn Counter)
    (keyed : turn.manager.matchMap.Keyed) :
    turn.handleMessage env (UpdateHandler.update listener) msg =
      turn.handleMessage env (UpdateHandler.update listener') msg :=
  handleMessage_congr env msg turn keyed fun matchState next _ keyed' _ =>
    agree matchState next keyed'

include clean

theorem startMatch_agrees (targetMatch : List String) (counter : Counter) (callback : Callback)
    (turn : Turn Counter) (keyed : turn.manager.matchMap.Keyed) :
    startMatch env listener targetMatch counter callback turn =
      startMatch env listener' targetMatch counter callback turn := by
  by_cases idle : turn.manager.matchAgent.state = .idle
  · rw [startMatch_update env clean _ _ _ _ _ idle, startMatch_update env clean _ _ _ _ _ idle]
    refine congrArg (EStateM.Result.ok true) ?_
    unfold Turn.search Turn.sendMessage
    simp only
    split <;> rw [handleMessage_agrees env agree] <;> exact keyed
  · rw [startMatch_refused env _ _ _ _ _ idle, startMatch_refused env _ _ _ _ _ idle]

theorem restartMatch_agrees (turn : Turn Counter) (keyed : turn.manager.matchMap.Keyed) :
    restartMatch env listener turn = restartMatch env listener' turn := by
  have started (targetMatch : List String) (callback : Callback) := startMatch_agrees env clean agree
    targetMatch turn.manager.matchAgent.counter callback
    (turn.setAgent fun agent => { agent with state := .idle }) keyed
  simp only [restartMatch, bind_run, getAgent_run]
  cases turn.manager.matchAgent.state <;> cases turn.manager.matchAgent.targetMatch <;>
    cases turn.manager.matchAgent.matchCallback <;>
      simp only [bind_run, setAgent_run, discard_run, started]

theorem agentUpdate_agrees : Agree (agentUpdate env listener) (agentUpdate env listener') := by
  intro matchState turn keyed
  rw [agentUpdate_some env clean, agentUpdate_some env clean]
  unfold Turn.sendMessage
  simp only [Handler.turn, restartMatch_agrees env clean agree turn keyed]
  cases turn.manager.matchAgent.state <;> cases matchState.claimsSeen <;>
    simp only [handleMessage_agrees env agree (.ack _) (turn.emit _) keyed]

theorem handlerWith_agrees (turn : Turn Counter) (keyed : turn.manager.matchMap.Keyed)
    (event : Event Counter) :
    event.handlerWith env listener turn = event.handlerWith env listener' turn := by
  cases event with
  | findMatch targetMatch counter callback =>
    simp only [Event.handlerWith, discard_run]
    rw [startMatch_agrees env clean agree targetMatch counter callback turn keyed]
  | poll time =>
    obtain ⟨due, polls⟩ := pollWith_run env time turn
    simp only [Event.handlerWith, polls, restartMatch_agrees env clean agree turn keyed]
  | receive msg =>
    simp only [Event.handlerWith, handleMessage_update env clean,
      handleMessage_agrees env agree msg turn keyed]
  | stopMatch => exact congrFun (stopMatch_silent env _ _) turn
  | checkTimeouts | receiveMalformed | addMatchListener => rfl

end Agree

theorem updateOr_agrees (env : Env Counter) (clean : env.realm = .pristine)
    (missing : Handler Counter Unit) (depth : Nat) :
    Agree (updateOr env missing depth) (handleMatchStateUpdate env depth) := by
  induction depth with
  | zero => exact fun _ _ _ => rfl
  | succ depth ih =>
    rw [handleMatchStateUpdate_succ]
    exact agentUpdate_agrees env clean ih

section Handle

variable (env : Env Counter) (clean : env.realm = .pristine) {manager : MatchManager Counter}
variable (inv : manager.Inv)

include clean inv

section Entry

variable {entry : MatchState Counter}
variable (held : manager.matchMap.lookup entry.matchId = some entry)
variable (depth : Nat) (user : PublicKey)

include held

theorem claim_ends (counter : Counter) (serves : manager.Serves entry.matchId) :
    let pushed := entry.pushClaim user counter
    Turn.EndsWith pushed (Turn.putting manager pushed)
      ((Turn.putting manager pushed).update env (depth + 2) (some pushed)) := by
  intro pushed
  have unclaimed := inv.unclaimed serves.1 _ _ held serves.2
  have acknowledged := update_acknowledge env clean depth (Turn.putting manager pushed) pushed user
    counter [] (AList.lookup_insert _) serves.2 serves.1
    (by simp [pushed, MatchState.pushClaim, unclaimed])
  rw [acknowledged]
  exact .acknowledge pushed user _

theorem ack_ends (joins : manager.Joins entry.matchId) (self : manager.matchAgent.id = user) :
    let pushed := entry.pushAck user
    Turn.EndsWith pushed (Turn.putting manager pushed)
      ((Turn.putting manager pushed).update env (depth + 1) (some pushed)) := by
  intro pushed
  rw [ack_updates env clean inv user held depth joins, if_pos self]
  exact .complete pushed _

end Entry

variable {heard : String → Option (MatchState Counter) → Prop}
variable (entries : ∀ entry : MatchState Counter, heard entry.matchId (some entry))

include entries

theorem claim_handles (msg : MatchClaimMessage Counter)
    (ends : manager.Ends (.receive (.claim msg)) → ∀ matchId, heard matchId none) :
    Turn.Handles heard (.claim msg) ⟨manager, 0, []⟩
      (Turn.handleMessage env (Turn.update env env.stack) (.claim msg) ⟨manager, 0, []⟩) := by
  obtain ⟨depth, deep⟩ := Nat.exists_eq_add_of_le' env.stack_deep
  rw [deep]
  cases held : manager.matchMap.lookup msg.matchId with
  | none =>
    simp only [Turn.handleMessage, Turn.handleClaim, held]
    exact .refl _
  | some entry =>
    obtain ⟨matchId, user, counter⟩ := msg
    obtain rfl := inv.keyed matchId entry held
    by_cases serves : manager.Serves entry.matchId
    · have ended := claim_ends env clean inv held (depth + 1) user counter serves
      simp only [Turn.handleMessage, Turn.handleClaim, held]
      split
      next => exact .refl _
      next =>
        have isHeard := ends (.inl ⟨serves, entry, held⟩) entry.matchId
        exact ((raise_ends_tells (AList.lookup_insert _) ended isHeard).handles rfl).of_setMap
    · have quiet := claim_quiet inv held user counter serves
      exact handleClaim_handles env clean (depth + 2) held quiet
        (entries (entry.pushClaim user counter))

theorem passed_over_tells (depth : Nat) {entry : MatchState Counter} {user : PublicKey}
    (held : manager.matchMap.lookup entry.matchId = some entry)
    (joins : manager.Joins entry.matchId) (other : manager.matchAgent.id ≠ user)
    (ends : manager.Ends (.receive (.ack ⟨entry.matchId, user⟩)) → ∀ matchId, heard matchId none) :
    let put := Turn.putting manager (entry.pushAck user)
    Turn.Tells heard entry.matchId put (put.raise (Turn.update env (depth + 3)) entry.matchId) := by
  intro put
  let rest := (restartMatch env (handleMatchStateUpdate env (depth + 2))).turn put
  have reached : put.raise (Turn.update env (depth + 3)) entry.matchId =
      rest.tell manager.added entry.matchId :=
    ack_restarts env clean inv user held (depth + 2) joins other
  have isPut : put.manager.matchMap.lookup entry.matchId = some (entry.pushAck user) :=
    AList.lookup_insert _
  obtain ⟨targetMatch, callback, -, targets, waiting, -⟩ :=
    inv.consistent.waits (by simp [joins.1])
  have keyed : put.manager.matchMap.Keyed := inv.keyed.insert rfl
  have busy : put.manager.matchAgent.state ≠ .idle := by simp [put, Turn.putting, joins.1]
  have atOnce (filled : put.manager.FillsAtOnce targetMatch) : ∀ matchId, heard matchId none :=
    ends (.inl ⟨joins, Ne.symm other, entry, targetMatch, held, targets, filled⟩)
  have restarted : Turn.Leads heard put rest :=
    restart_leads env clean depth busy targets waiting keyed entries atOnce
  obtain ⟨_, search, _⟩ := restart_effect env clean depth put targetMatch callback busy targets
    waiting keyed
  rw [reached]
  refine restarted.tell ?_
  rcases search.keeps keyed isPut with ⟨kept, isKept, same⟩ | ⟨gone, filled⟩
  · rw [isKept, ← same]
    exact entries kept
  · rw [gone]
    exact atOnce filled _

theorem ack_handles (msg : MatchAckMessage)
    (ends : manager.Ends (.receive (.ack msg)) → ∀ matchId, heard matchId none) :
    Turn.Handles heard (.ack msg) ⟨manager, 0, []⟩
      (Turn.handleMessage env (Turn.update env env.stack) (.ack msg) ⟨manager, 0, []⟩) := by
  obtain ⟨depth, deep⟩ := Nat.exists_eq_add_of_le' env.stack_deep
  obtain ⟨matchId, user⟩ := msg
  cases held : manager.matchMap.lookup matchId with
  | none =>
    simp only [Turn.handleMessage, Turn.handleAck, held]
    exact .refl _
  | some entry =>
    obtain rfl := inv.keyed matchId entry held
    let put := Turn.putting manager (entry.pushAck user)
    have told : Turn.Tells heard entry.matchId put
        (put.raise (Turn.update env (depth + 3)) entry.matchId) := by
      by_cases joins : manager.Joins entry.matchId
      · by_cases self : manager.matchAgent.id = user
        · have ended := ack_ends env clean inv held (depth + 2) user joins self
          have isPut : put.manager.matchMap.lookup (entry.pushAck user).matchId =
              some (entry.pushAck user) := AList.lookup_insert _
          have raised := raise_ends_tells isPut ended
            (ends (.inr ⟨entry, joins, held, by rw [self]⟩) _)
          exact raised
        · exact passed_over_tells env clean inv entries depth held joins self ends
      · exact raise_tells (AList.lookup_insert _)
          (update_quiet env clean (depth + 2) _ put (ack_quiet inv held user joins))
          (entries (entry.pushAck user))
    have unseen := inv.unacked _ _ held
    simp only [Turn.handleMessage, Turn.handleAck, held, unseen, List.any_nil, Bool.false_eq_true,
      if_false, deep]
    exact (told.handles rfl).of_setMap.setMap _

theorem handle_raises (event : Event Counter)
    (ends : manager.Ends event → ∀ matchId, heard matchId none) :
    event.Raises manager.added heard (manager.handle env event).2 := by
  obtain ⟨depth, deep⟩ := Nat.exists_eq_add_of_le' env.stack_deep
  cases event with
  | findMatch targetMatch counter callback =>
    by_cases idle : manager.matchAgent.state = .idle
    · rw [findMatch_handle env clean manager _ _ _ idle, deep]
      exact Turn.Leads.acts_new (search_leads env clean (depth + 1) targetMatch counter callback
        inv.keyed entries fun filled => ends (.inl ⟨idle, filled⟩))
    · rw [findMatch_refused env manager _ _ _ idle]
      exact .nil
  | stopMatch => exact Turn.Leads.acts_new (stopMatch_leads env clean _)
  | poll time =>
    classical
    by_cases due : manager.RestartDue time
    · obtain ⟨targetMatch, callback, -, targets, waiting, -⟩ :=
        inv.consistent.waits (RestartDue.busy due)
      rw [poll_handle env manager inv due, deep]
      exact Turn.Leads.acts_new (restart_leads env clean (depth + 1) (RestartDue.busy due) targets
        waiting inv.keyed entries fun filled => ends (.inl ⟨due, targetMatch, targets, filled⟩))
    · rw [poll_early env manager inv due]
      exact .nil
  | checkTimeouts time =>
    obtain ⟨map, handled, -⟩ := checkTimeouts_handle env clean manager time
    rw [handled]
    exact .nil
  | receive msg =>
    rw [receive_handle env clean]
    apply Turn.Handles.handled_new
    cases msg with
    | advertise msg =>
      have named := advertised_matchId inv.keyed msg (env.clock 0)
      have quiet := update_quiet env clean (depth + 2) _ ((Turn.asked ⟨manager, 0, []⟩).setMap
        (·.insert (getMatchID msg.advertiser msg.match_)
          (manager.matchMap.advertised msg (env.clock 0))))
        (inv.advertised_unanswered msg (env.clock 0))
      have told := raise_tells (AList.lookup_insert _) quiet (named ▸ entries _)
      rw [deep]
      exact ⟨told.added, (told.handles rfl).handled⟩
    | unadvertise msg => exact (Turn.Handles.refl _).setMap _
    | claim msg => exact claim_handles env clean inv entries msg ends
    | ack msg => exact ack_handles env clean inv entries msg ends
  | receiveMalformed | addMatchListener => exact .nil

omit entries

section Unheard

variable {listener : Nat} (member : listener ∈ manager.added)

include member

theorem claim_unheard (msg : MatchClaimMessage Counter)
    (filled : manager.Fills (.receive (.claim msg))) :
    .listener listener none ∈ (manager.handle env (.receive (.claim msg))).2 := by
  obtain ⟨depth, deep⟩ := Nat.exists_eq_add_of_le' env.stack_deep
  obtain ⟨matchId, user, counter⟩ := msg
  obtain ⟨serves, entry, held⟩ := filled
  obtain rfl := inv.keyed matchId entry held
  have ended := claim_ends env clean inv held (depth + 1) user counter serves
  have unclaimed := inv.unclaimed serves.1 _ _ held serves.2
  rw [receive_handle env clean, deep]
  simp only [Turn.handleMessage, Turn.handleClaim, held, unclaimed, List.any_nil,
    Bool.false_eq_true, if_false]
  exact raise_ends_unheard (AList.lookup_insert _) ended member

theorem ack_unheard (msg : MatchAckMessage) (filled : manager.Fills (.receive (.ack msg))) :
    .listener listener none ∈ (manager.handle env (.receive (.ack msg))).2 := by
  obtain ⟨depth, deep⟩ := Nat.exists_eq_add_of_le' env.stack_deep
  obtain ⟨matchId, user⟩ := msg
  obtain ⟨joins, other, entry, targetMatch, held, targets, atOnce⟩ := filled
  obtain rfl := inv.keyed matchId entry held
  obtain ⟨-, callback, -, -, waiting, -⟩ := inv.consistent.waits (by simp [joins.1])
  have busy : (Turn.putting manager (entry.pushAck user)).manager.matchAgent.state ≠ .idle := by
    simp [Turn.putting, joins.1]
  rw [ack_handle env clean inv user held, deep]
  simp only [ack_restarts env clean inv user held (depth + 2) joins (Ne.symm other)]
  refine List.mem_append_left _ (restart_unheard env clean depth busy targets waiting ?_ ?_ member)
  · exact inv.keyed.insert rfl
  · exact atOnce

theorem handle_unheard {event : Event Counter} (ends : manager.Ends event) :
    .listener listener none ∈ (manager.handle env event).2 := by
  obtain ⟨depth, deep⟩ := Nat.exists_eq_add_of_le' env.stack_deep
  rcases ends with filled | ⟨entry, joins, held, rfl⟩
  · cases event with
    | findMatch targetMatch counter callback =>
      rw [findMatch_handle env clean manager _ _ _ filled.1, deep]
      exact search_unheard env clean (depth + 1) targetMatch counter callback inv.keyed filled.2
        member
    | poll time =>
      obtain ⟨due, targetMatch, targets, atOnce⟩ := filled
      obtain ⟨-, callback, -, -, waiting, -⟩ := inv.consistent.waits (RestartDue.busy due)
      rw [poll_handle env manager inv due, deep]
      exact restart_unheard env clean (depth + 1) (RestartDue.busy due) targets waiting inv.keyed
        atOnce member
    | receive msg =>
      cases msg with
      | claim msg => exact claim_unheard env clean inv member msg filled
      | ack msg => exact ack_unheard env clean inv member msg filled
      | advertise | unadvertise => exact filled.elim
    | stopMatch | checkTimeouts | receiveMalformed | addMatchListener => exact filled.elim
  · have ended := ack_ends env clean inv held (depth + 2) manager.matchAgent.id joins rfl
    rw [ack_handle env clean inv manager.matchAgent.id held, deep]
    exact raise_ends_unheard (AList.lookup_insert _) ended member

end Unheard

end Handle

namespace MatchManager

variable [IntCast Counter] (id : PublicKey)

end MatchManager

end RoundTable.Matcher
