import RoundTable.Matcher.Searches

set_option autoImplicit false

namespace RoundTable.Matcher

open Reactive

variable {Counter : Type}

-- What a search leaves of the two times that it has read.
structure Clocked (manager : MatchManager Counter) (acted seen : Int) : Prop where
  acted : manager.matchAgent.state ≠ .idle → manager.matchAgent.lastActionStart = acted
  seen : ∀ entry, manager.Serves entry.matchId →
    manager.matchMap.lookup entry.matchId = some entry → entry.lastSeen = seen

theorem advertised_lastSeen (map : MatchMap Counter) (msg : MatchAdvertiseMessage Counter)
    (seen : Int) : (map.advertised msg seen).lastSeen = seen := by
  unfold MatchMap.advertised
  split <;> rfl

theorem Clocked.drop {manager : MatchManager Counter} {acted seen : Int}
    (clocked : Clocked manager acted seen) (matchId : String) :
    Clocked (manager.drop matchId) acted seen where
  acted := clocked.acted
  seen entry serves held := by
    simp only [MatchManager.drop, AList.lookup_erase_of] at held
    split at held
    next => cases held
    next => exact clocked.seen entry serves held

def Output.acts : Output Counter → Bool
  | .publish (.advertise _) | .publish (.claim _) => true
  | _ => false

theorem acts_visible (outputs : List (Output Counter)) :
    (visible outputs).any Output.acts = outputs.any Output.acts := by
  rw [visible, List.any_filter]
  exact congrArg (List.any outputs) (funext fun output => by cases output <;> rfl)

section Step

variable (env : Env Counter) (clean : env.realm = .pristine)

include clean

theorem search_clocked (depth : Nat) (targetMatch : List String) (counter : Counter)
    (callback : Callback) (turn : Turn Counter) (keyed : turn.manager.matchMap.Keyed) :
    Clocked
      (turn.search env (Turn.update env (depth + 2)) targetMatch counter callback).manager
      (env.clock (turn.queries + 1)) (env.clock (turn.queries + 2)) := by
  cases found : (env.shuffle turn.queries (turn.manager.matchMap.entries.map (·.2))).find?
      (joinable targetMatch turn.manager.matchAgent.id) with
  | some entry =>
    have held := found_held env targetMatch turn keyed found
    rw [(search_join env clean (depth + 1) targetMatch counter callback turn entry held found).1]
    refine ⟨fun _ => rfl, fun other serves => ?_⟩
    cases serves.1
  | none =>
    have advertised := search_advertise env clean depth targetMatch counter callback turn keyed found
    simp only at advertised
    split at advertised
    next unclaimed =>
      rw [advertised.1]
      refine ⟨fun _ => rfl, fun other serves held => ?_⟩
      obtain same : _ = other.matchId := Option.some.inj serves.2
      rw [← same] at held
      simp only [MatchManager.serving, MatchManager.put, AList.lookup_insert] at held
      rw [← Option.some.inj held, advertised_lastSeen]
    next =>
      rw [advertised.1]
      refine ⟨fun busy => absurd rfl busy, fun other serves => ?_⟩
      cases serves.1

theorem restart_clocked (depth : Nat) (turn : Turn Counter) (targetMatch : List String)
    (callback : Callback) (busy : turn.manager.matchAgent.state ≠ .idle)
    (targets : turn.manager.matchAgent.targetMatch = some targetMatch)
    (waiting : turn.manager.matchAgent.matchCallback = some callback)
    (keyed : turn.manager.matchMap.Keyed) :
    Clocked ((restartMatch env (handleMatchStateUpdate env (depth + 2))).turn turn).manager
      (env.clock (turn.queries + 1)) (env.clock (turn.queries + 2)) := by
  rw [Handler.turn, restartMatch_run env clean _ targetMatch callback turn busy targets waiting]
  exact search_clocked env clean depth targetMatch turn.manager.matchAgent.counter callback
    (turn.setAgent fun agent => { agent with state := .idle }) keyed

variable (manager : MatchManager Counter) (inv : manager.Inv)

include inv

theorem findMatch_clocked (targetMatch : List String) (counter : Counter) (callback : Callback)
    (idle : manager.matchAgent.state = .idle) :
    Clocked (manager.handle env (.findMatch targetMatch counter callback)).1 (env.clock 1)
      (env.clock 2) := by
  obtain ⟨depth, deep⟩ := Nat.exists_eq_add_of_le' env.stack_deep
  rw [findMatch_handle env clean manager _ _ _ idle, deep]
  exact search_clocked env clean (depth + 1) targetMatch counter callback ⟨manager, 0, []⟩ inv.keyed

theorem poll_returns (time : Int) (due : manager.RestartDue time) :
    poll env time ⟨manager, 0, []⟩ = .ok () ((poll env time).turn ⟨manager, 0, []⟩) := by
  classical
  obtain ⟨targetMatch, callback, -, targets, waiting, -⟩ :=
    inv.consistent.waits (RestartDue.busy due)
  have run := poll_run env manager inv time
  rw [if_pos due, restartMatch_run env clean _ targetMatch callback ⟨manager, 0, []⟩
    (RestartDue.busy due) targets waiting] at run
  rw [Handler.turn, run]

theorem poll_clocked (time : Int) (due : manager.RestartDue time) :
    Clocked (manager.handle env (.poll time)).1 (env.clock 1) (env.clock 2) := by
  obtain ⟨depth, deep⟩ := Nat.exists_eq_add_of_le' env.stack_deep
  obtain ⟨targetMatch, callback, -, targets, waiting, -⟩ :=
    inv.consistent.waits (RestartDue.busy due)
  rw [poll_handle env manager inv due, deep]
  exact restart_clocked env clean (depth + 1) ⟨manager, 0, []⟩ targetMatch callback
    (RestartDue.busy due) targets waiting inv.keyed

theorem ack_clocked (entry : MatchState Counter) (user : PublicKey)
    (held : manager.matchMap.lookup entry.matchId = some entry)
    (joins : manager.Joins entry.matchId) (other : user ≠ manager.matchAgent.id) :
    Clocked (manager.handle env (.receive (.ack ⟨entry.matchId, user⟩))).1 (env.clock 1)
      (env.clock 2) := by
  obtain ⟨depth, deep⟩ := Nat.exists_eq_add_of_le' env.stack_deep
  obtain ⟨targetMatch, callback, -, targets, waiting, -⟩ :=
    inv.consistent.waits (by simp [joins.1])
  let put := Turn.putting manager (entry.pushAck user)
  have keyed : put.manager.matchMap.Keyed := inv.keyed.insert rfl
  have busy : put.manager.matchAgent.state ≠ .idle := by simp [put, Turn.putting, joins.1]
  rw [ack_handle env clean inv user held, deep]
  simp only [ack_restarts env clean inv user held (depth + 2) joins (Ne.symm other)]
  exact (restart_clocked env clean depth put targetMatch callback busy targets waiting
    keyed).drop entry.matchId

-- Whatever event makes a search act, the search reads the clock twice.
theorem handle_clocked (event : Event Counter)
    (acts : (manager.handle env event).2.any Output.acts = true) :
    Clocked (manager.handle env event).1 (env.clock 1) (env.clock 2) := by
  rw [← acts_visible] at acts
  have effect := handle_effect env clean manager inv event
  simp only at effect
  generalize visible (manager.handle env event).2 = actions at effect acts
  generalize reached : (manager.handle env event).1 = after at effect
  cases effect with
  | started targetMatch counter callback actions after idle search =>
    exact reached ▸ findMatch_clocked env clean manager inv targetMatch counter callback idle
  | restarted time targetMatch callback actions after due targets waiting search =>
    exact reached ▸ poll_clocked env clean manager inv time due
  | passedOver entry user targetMatch callback actions after held joins other targets waiting search =>
    exact reached ▸ ack_clocked env clean manager inv entry user held joins other
  | _ => exact absurd acts Bool.false_ne_true

end Step

/-- What a search of `agent` has done by the end of an event in which it acted at `acted`. It has
claimed a match that it looks for, or advertised its first target, and it waits for an answer to
that, unless the advert was filled at once. -/
inductive Continues (manager : MatchManager Counter) (acted : Int)
    (outputs : List (Output Counter)) (after : MatchManager Counter) : Prop where
  | claims (targetMatch : List String) (entry : MatchState Counter)
      (targets : manager.matchAgent.targetMatch = some targetMatch)
      (held : manager.matchMap.lookup entry.matchId = some entry)
      (open_ : joinable targetMatch manager.matchAgent.id entry = true)
      (claims : .publish (.claim ⟨entry.matchId, manager.matchAgent.id,
        manager.matchAgent.counter⟩) ∈ outputs)
      (waits : after.matchAgent =
        { manager.matchAgent with
          state := .joiningWaitingAck
          matchId := some entry.matchId
          lastActionStart := acted })
  | advertises (target : String) (others : List String)
      (targets : manager.matchAgent.targetMatch = some (target :: others))
      (advertises : .publish (.advertise ⟨manager.matchAgent.id, .string target,
        manager.matchAgent.counter⟩) ∈ outputs)
      (waits : after.matchAgent =
        { manager.matchAgent with
          state := .servingWaitingClaims
          matchId := some (getMatchID manager.matchAgent.id (.string target))
          lastActionStart := acted })
  | completes (target : String) (others : List String)
      (targets : manager.matchAgent.targetMatch = some (target :: others))
      (advertises : .publish (.advertise ⟨manager.matchAgent.id, .string target,
        manager.matchAgent.counter⟩) ∈ outputs)
      (agent : MatchAgent Counter) (callback : Callback) (result : MatchState Counter)
      (waiting : manager.matchAgent.matchCallback = some callback)
      (called : .callback agent callback (some result) ∈ outputs)
      (idle : after.matchAgent.state = .idle)

theorem Search.continues {manager after : MatchManager Counter} {targetMatch : List String}
    {callback : Callback} {actions : List (Output Counter)}
    (search : Search manager targetMatch manager.matchAgent.counter callback actions after)
    (keyed : manager.matchMap.Keyed)
    (targets : manager.matchAgent.targetMatch = some targetMatch)
    (nonempty : targetMatch ≠ [])
    (waiting : manager.matchAgent.matchCallback = some callback) {acted seen : Int}
    (clocked : Clocked after acted seen) :
    Continues manager acted actions after := by
  obtain ⟨target, others, rfl⟩ := List.exists_cons_of_ne_nil nonempty
  cases search with
  | join entry now held open_ =>
    have now_eq : now = acted := clocked.acted (by simp [MatchManager.joining])
    refine .claims (target :: others) entry targets held open_ (by simp) ?_
    simp [MatchManager.joining, targets, waiting, now_eq]
  | serve entry now seen' closed own unclaimed =>
    have now_eq : now = acted := clocked.acted (by simp [MatchManager.serving])
    have named := advertised_matchId keyed (manager.advert (target :: others)
      manager.matchAgent.counter) seen'
    rw [← own] at named
    refine .advertises target others targets (by simp [MatchManager.advert, Matcher.advertised]) ?_
    simp [MatchManager.serving, MatchManager.advert, Matcher.advertised, targets, waiting, now_eq,
      named]
  | fill entry now seen' user claimCounter rest closed own claims =>
    refine .completes target others targets (by simp [MatchManager.advert, Matcher.advertised]) _
      callback _ waiting (List.mem_append_right _ (List.mem_singleton_self _)) rfl

theorem Continues.of_visible {manager after : MatchManager Counter} {acted : Int}
    {outputs : List (Output Counter)} (continues : Continues manager acted (visible outputs) after) :
    Continues manager acted outputs after := by
  cases continues with
  | claims targetMatch entry targets held open_ claims waits =>
    exact .claims targetMatch entry targets held open_ (mem_visible_publish.mp claims) waits
  | advertises target others targets advertises waits =>
    exact .advertises target others targets (mem_visible_publish.mp advertises) waits
  | completes target others targets advertises agent callback result waiting called idle =>
    exact .completes target others targets (mem_visible_publish.mp advertises) agent callback result
      waiting (mem_visible_callback.mp called) idle

namespace MatchManager

variable [IntCast Counter] (id : PublicKey)

/-- Whatever has happened to a search, a poll that comes more than the rebroadcast timeout after
its last action returns, and makes the search act again. -/
theorem no_stuck_search (inputs : List (Input Counter))
    (targeted : ∀ input ∈ inputs, input.event.Targeted) (env : Env Counter)
    (clean : env.realm = .pristine) (t : Int) :
    let manager := (react.run (MatchManager.new id) inputs).1
    manager.matchAgent.state ≠ .idle →
      t - manager.matchAgent.lastActionStart > servingRebroadcastTimeout →
        ∃ turn, poll env t ⟨manager, 0, []⟩ = .ok () turn ∧
          Continues manager (env.clock 1) turn.outputs turn.manager := by
  intro manager busy late
  have inv : manager.Inv := run_inv id inputs
  have nonempty := run_targeted id inputs targeted
  have due : manager.RestartDue t := by
    unfold RestartDue
    cases state : manager.matchAgent.state with
    | idle => exact busy state
    | servingWaitingClaims => exact late
    | joiningWaitingAck =>
      right
      simp only [servingRebroadcastTimeout, claimAckTimeout] at *
      omega
  refine ⟨_, poll_returns env clean manager inv t due, Continues.of_visible ?_⟩
  have clocked := poll_clocked env clean manager inv t due
  have effect := poll_effect env clean manager inv t
  simp only [handle, Event.handler] at effect clocked
  generalize visible ((poll env t).turn ⟨manager, 0, []⟩).outputs = actions at effect ⊢
  generalize ((poll env t).turn ⟨manager, 0, []⟩).manager = after at effect clocked ⊢
  cases effect with
  | quiet event quiet => exact absurd due quiet
  | restarted time targetMatch callback actions after due targets waiting search =>
    exact search.continues inv.keyed targets (nonempty _ targets) waiting clocked

theorem no_stuck_search_unanswered :
    let manager := (react.run (MatchManager.new (.small 1) : MatchManager Int)
      [.still 0 (.receive (.advertise ⟨.small 2, .string "chess", 1⟩)),
        .still 1 (.findMatch ["chess"] 1 7)]).1
    ∃ turn, poll (.still 10002) 10002 ⟨manager, 0, []⟩ = .ok () turn ∧
      Continues manager 10002 turn.outputs turn.manager :=
  no_stuck_search (.small 1)
    [.still 0 (.receive (.advertise ⟨.small 2, .string "chess", 1⟩)),
      .still 1 (.findMatch ["chess"] 1 7)]
    (by simp [Input.still, Event.Targeted]) (.still 10002) rfl 10002 (by decide +kernel)
    (by decide +kernel)

end MatchManager

end RoundTable.Matcher
