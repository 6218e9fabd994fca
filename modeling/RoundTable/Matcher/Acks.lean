import RoundTable.Matcher.Completions
import RoundTable.Matcher.Protocol

set_option autoImplicit false

namespace RoundTable.Matcher

open Reactive

variable {Counter : Type}

def Output.fills : Output Counter → Bool
  | .callback agent _ (some _) => agent.state = .servingWaitingClaims
  | _ => false

-- A hosting search ends with a match.
def fills (outputs : List (Output Counter)) : Bool :=
  outputs.any Output.fills

def Output.isAck : Output Counter → Bool
  | .publish (.ack _) => true
  | _ => false

def acks (outputs : List (Output Counter)) : Nat :=
  outputs.countP Output.isAck

namespace MatchManager

structure FillsAtOnce (manager : MatchManager Counter) (targetMatch : List String) : Prop where
  closed : ∀ key held, manager.matchMap.lookup key = some held →
    joinable targetMatch manager.matchAgent.id held = false
  claimed : ∃ entry,
    manager.matchMap.lookup (getMatchID manager.matchAgent.id (advertised targetMatch)) =
      some entry ∧ entry.claimsSeen ≠ []

-- The events in which a hosting search ends with a match.
def Fills (manager : MatchManager Counter) : Event Counter → Prop
  | .receive (.claim msg) =>
    manager.Serves msg.matchId ∧ ∃ entry, manager.matchMap.lookup msg.matchId = some entry
  | .receive (.ack msg) =>
    manager.Joins msg.matchId ∧ msg.user ≠ manager.matchAgent.id ∧
      ∃ entry targetMatch, manager.matchMap.lookup msg.matchId = some entry ∧
        manager.matchAgent.targetMatch = some targetMatch ∧
          (manager.put (entry.pushAck msg.user)).FillsAtOnce targetMatch
  | .findMatch targetMatch _ _ =>
    manager.matchAgent.state = .idle ∧ manager.FillsAtOnce targetMatch
  | .poll time =>
    manager.RestartDue time ∧ ∃ targetMatch, manager.matchAgent.targetMatch = some targetMatch ∧
      manager.FillsAtOnce targetMatch
  | _ => False

/-- The event is the ack that the host of the match would send. The text of its match is that of
the agent's own match, though the agent waits to join it. -/
def AckedAlready (manager : MatchManager Counter) : Event Counter → Prop
  | .receive (.ack msg) =>
    ∃ entry targetMatch, manager.matchMap.lookup msg.matchId = some entry ∧
      manager.matchAgent.targetMatch = some targetMatch ∧
        getMatchID manager.matchAgent.id (advertised targetMatch) = msg.matchId ∧
          entry.claimsSeen.head?.map (·.1) = some msg.user
  | _ => False

end MatchManager

theorem fills_visible (outputs : List (Output Counter)) :
    fills (visible outputs) = fills outputs := by
  rw [fills, visible, List.any_filter]
  exact congrArg (List.any outputs) (funext fun output => by cases output <;> rfl)

theorem acks_visible (outputs : List (Output Counter)) : acks (visible outputs) = acks outputs := by
  rw [acks, visible, List.countP_filter]
  congr 1
  funext output
  cases output <;> simp [Output.isAck, Output.visible]

section Step

variable {manager after : MatchManager Counter} {event : Event Counter}
variable {actions : List (Output Counter)}

theorem acks_of_entry (entry : MatchState Counter) (user : PublicKey) :
    acks (entry.acks user) = if user ∈ entry.acksSeen then 1 else 2 := by
  unfold MatchState.acks
  split <;> rfl

inductive SearchAcks (manager : MatchManager Counter) (targetMatch : List String)
    (actions : List (Output Counter)) (after : MatchManager Counter) : Prop where
  | waits (unfilled : ¬manager.FillsAtOnce targetMatch) (ends : fills actions = false)
      (silent : acks actions = 0)
  | ends (filled : manager.FillsAtOnce targetMatch) (ends : fills actions = true)
      (idle : after.matchAgent.state = .idle) (entry : MatchState Counter)
      (claim : PublicKey × Counter)
      (own : manager.matchMap.lookup (getMatchID manager.matchAgent.id (advertised targetMatch)) =
        some entry)
      (first : entry.claimsSeen.head? = some claim)
      (count : acks actions = if claim.1 ∈ entry.acksSeen then 1 else 2)

theorem Search.acks {targetMatch : List String} {counter : Counter} {callback : Callback}
    (search : Search manager targetMatch counter callback actions after) :
    SearchAcks manager targetMatch actions after := by
  cases search with
  | join entry now held open_ =>
    refine .waits (fun filled => ?_) rfl rfl
    rw [filled.closed _ entry held] at open_
    cases open_
  | serve entry now seen closed own unclaimed =>
    refine .waits (fun filled => ?_) rfl rfl
    obtain ⟨found, isFound, claimed⟩ := filled.claimed
    have same : entry.claimsSeen = found.claimsSeen := by
      rw [own, MatchMap.advertised]
      simp only [MatchManager.advert, isFound]
    exact claimed (same ▸ unclaimed)
  | fill entry now seen user claimCounter rest closed own claims =>
    obtain ⟨found, isFound, refreshed⟩ := advertised_held (by rw [← own, claims]; simp)
    rw [← own] at refreshed
    have sameClaims : entry.claimsSeen = found.claimsSeen := by rw [refreshed]
    have sameAcks : entry.acksSeen = found.acksSeen := by rw [refreshed]
    rw [claims] at sameClaims
    refine .ends ⟨closed, found, isFound, by simp [← sameClaims]⟩ ?_ rfl found (user, claimCounter)
      isFound (by simp [← sameClaims]) ?_
    · simp [fills, Output.fills, MatchManager.serving]
    · rw [← sameAcks, ← acks_of_entry entry user]
      simp [Matcher.acks, Output.isAck, List.countP_append]

inductive Acknowledges (manager : MatchManager Counter) (event : Event Counter)
    (actions : List (Output Counter)) (after : MatchManager Counter) : Prop where
  | waits (unfilled : ¬manager.Fills event) (ends : fills actions = false)
      (silent : acks actions = 0)
  | once (filled : manager.Fills event) (ends : fills actions = true)
      (idle : after.matchAgent.state = .idle) (already : manager.AckedAlready event)
      (count : acks actions = 1)
  | twice (filled : manager.Fills event) (ends : fills actions = true)
      (idle : after.matchAgent.state = .idle) (first : ¬manager.AckedAlready event)
      (count : acks actions = 2)

section PassedOver

variable {entry : MatchState Counter} {user : PublicKey} {targetMatch : List String}
variable (held : manager.matchMap.lookup entry.matchId = some entry)
variable (targets : manager.matchAgent.targetMatch = some targetMatch)

include held targets

theorem fills_ack_iff (joins : manager.Joins entry.matchId)
    (other : user ≠ manager.matchAgent.id) :
    manager.Fills (.receive (.ack ⟨entry.matchId, user⟩)) ↔
      (manager.put (entry.pushAck user)).FillsAtOnce targetMatch := by
  constructor
  · rintro ⟨-, -, entry', targetMatch', held', targets', atOnce⟩
    obtain rfl := Option.some.inj (targets.symm.trans targets')
    obtain rfl := Option.some.inj (held.symm.trans held')
    exact atOnce
  · exact fun atOnce => ⟨joins, other, entry, targetMatch, held, targets, atOnce⟩

theorem ackedAlready_iff :
    manager.AckedAlready (.receive (.ack ⟨entry.matchId, user⟩)) ↔
      getMatchID manager.matchAgent.id (advertised targetMatch) = entry.matchId ∧
        entry.claimsSeen.head?.map (·.1) = some user := by
  constructor
  · rintro ⟨entry', targetMatch', held', targets', same, acked⟩
    obtain rfl := Option.some.inj (targets.symm.trans targets')
    obtain rfl := Option.some.inj (held.symm.trans held')
    exact ⟨same, acked⟩
  · exact fun ⟨same, acked⟩ => ⟨entry, targetMatch, held, targets, same, acked⟩

-- Of the two entries that a restart reads, only the acknowledged one has an ack.
theorem acked_own_iff (inv : manager.Inv) {own : MatchState Counter} {claim : PublicKey × Counter}
    (isOwn : (manager.put (entry.pushAck user)).matchMap.lookup
      (getMatchID manager.matchAgent.id (advertised targetMatch)) = some own)
    (first : own.claimsSeen.head? = some claim) :
    claim.1 ∈ own.acksSeen ↔ manager.AckedAlready (.receive (.ack ⟨entry.matchId, user⟩)) := by
  rw [ackedAlready_iff held targets]
  simp only [MatchManager.put, pushAck_matchId, AList.lookup_insert_of] at isOwn
  split at isOwn
  next same =>
    obtain rfl := Option.some.inj isOwn
    rw [pushAck_claimsSeen] at first
    simp [same, first, inv.unacked _ entry held]
  next elsewhere => simp [elsewhere, inv.unacked _ own isOwn]

end PassedOver

theorem Effect.acknowledges (effect : Effect manager event actions after) (inv : manager.Inv) :
    Acknowledges manager event actions after := by
  cases effect with
  | quiet event quiet =>
    refine .waits (fun filled => ?_) rfl rfl
    cases event with
    | findMatch => exact quiet filled.1
    | poll => exact quiet filled.1
    | receive msg =>
      cases msg with
      | claim msg =>
        obtain ⟨serves, entry, held⟩ := filled
        obtain ⟨claim, member, -⟩ := quiet entry held
        rw [inv.unclaimed serves.1 _ entry held serves.2] at member
        cases member
      | ack msg =>
        obtain ⟨-, -, entry, targetMatch, held, -⟩ := filled
        rw [show manager.matchMap.lookup msg.matchId = none from quiet] at held
        cases held
      | _ => exact filled
    | _ => exact filled
  | listening | expired | advertised | withdrawn | unadvertised | stopped =>
    exact .waits id rfl rfl
  | claimed entry user counter held first elsewhere =>
    exact .waits (fun filled => elsewhere filled.1) rfl rfl
  | filled entry user held elsewhere =>
    exact .waits (fun filled => elsewhere filled.1) rfl rfl
  | joined entry callback held joins waiting =>
    refine .waits (fun filled => filled.2.1 rfl) ?_ rfl
    simp [fills, Output.fills, joins.1]
  | hosted entry user counter callback held first serves waiting =>
    refine .twice ⟨serves, entry, held⟩ ?_ rfl id rfl
    simp [fills, Output.fills, serves.1]
  | started targetMatch counter callback actions after idle search =>
    cases search.acks with
    | waits unfilled ends silent => exact .waits (fun filled => unfilled filled.2) ends silent
    | ends filled ends idle' entry claim own first count =>
      refine .twice ⟨idle, filled⟩ ends idle' id ?_
      simpa [inv.unacked _ entry own] using count
  | restarted time targetMatch callback actions after due targets waiting search =>
    cases search.acks with
    | waits unfilled ends silent =>
      refine .waits (fun filled => unfilled ?_) ends silent
      obtain ⟨-, targetMatch', targets', atOnce⟩ := filled
      obtain rfl := Option.some.inj (targets.symm.trans targets')
      exact atOnce
    | ends filled ends idle entry claim own first count =>
      refine .twice ⟨due, targetMatch, targets, filled⟩ ends idle id ?_
      simpa [inv.unacked _ entry own] using count
  | passedOver entry user targetMatch callback actions after held joins other targets waiting search =>
    have fills := fills_ack_iff held targets joins other
    cases search.acks with
    | waits unfilled ends silent =>
      exact .waits (fun filled => unfilled (fills.mp filled)) ends silent
    | ends filled ends idle own claim isOwn first count =>
      have seen := acked_own_iff held targets inv isOwn first
      split at count
      next acked => exact .once (fills.mpr filled) ends idle (seen.mp acked) count
      next fresh => exact .twice (fills.mpr filled) ends idle (fun was => fresh (seen.mpr was)) count

end Step

def OneSearch (moments : List (Moment Counter)) : Prop :=
  ∀ moment ∈ moments.tail, moment.before.matchAgent.state ≠ .idle

structure AcksOnce (moments : List (Moment Counter)) : Prop where
  filled : ∀ moment ∈ moments, fills moment.outputs = true → acks moment.outputs = 1
  lives : ∀ earlier life later, moments = earlier ++ life ++ later → OneSearch life →
    (life.map fun moment => acks moment.outputs).sum ≤ 1

theorem OneSearch.busy {life rest : List (Moment Counter)}
    (chain : (life ++ rest).IsChain fun moment next => next.before = moment.after)
    (one : OneSearch (life ++ rest)) (follows : rest ≠ []) :
    ∀ moment ∈ life, moment.after.matchAgent.state ≠ .idle := by
  induction life with
  | nil => simp
  | cons moment life ih =>
    intro other member
    rcases List.mem_cons.mp member with rfl | inside
    · obtain ⟨next, tail, split⟩ := List.exists_cons_of_ne_nil
        (List.append_ne_nil_of_right_ne_nil life follows)
      rw [List.cons_append, split] at chain one
      have continues : next.before = other.after := (List.isChain_cons_cons.mp chain).1
      rw [← continues]
      exact one next List.mem_cons_self
    · refine ih chain.tail (fun later isLater => ?_) other inside
      exact one later (List.mem_of_mem_tail isLater)

theorem acks_of_life {life : List (Moment Counter)}
    (chain : life.IsChain fun moment next => next.before = moment.after) (one : OneSearch life)
    (ends : ∀ moment ∈ life, acks moment.outputs = 0 ∨
      acks moment.outputs = 1 ∧ moment.after.matchAgent.state = .idle) :
    (life.map fun moment => acks moment.outputs).sum ≤ 1 := by
  induction life with
  | nil => simp
  | cons moment rest ih =>
    rw [List.map_cons, List.sum_cons]
    rcases ends moment List.mem_cons_self with silent | ⟨acked, idle⟩
    · rw [silent, Nat.zero_add]
      exact ih chain.tail (fun later member => one later (List.mem_of_mem_tail member))
        fun later member => ends later (List.mem_cons_of_mem _ member)
    · cases rest with
      | nil => simp [acked]
      | cons next rest =>
        have split : OneSearch ([moment] ++ next :: rest) := one
        exact absurd idle (split.busy chain (List.cons_ne_nil _ _) moment List.mem_cons_self)

namespace MatchManager

variable [IntCast Counter] (id : PublicKey)

theorem trace_acknowledges (inputs : List (Input Counter)) {moment : Moment Counter}
    (member : moment ∈ react.trace (MatchManager.new id) inputs) :
    Acknowledges moment.before moment.input.event moment.outputs moment.after := by
  obtain ⟨inv, effect⟩ := trace_effects id inputs member
  cases effect.acknowledges inv with
  | waits unfilled ends silent =>
    exact .waits unfilled (fills_visible _ ▸ ends) (acks_visible _ ▸ silent)
  | once filled ends idle already count =>
    exact .once filled (fills_visible _ ▸ ends) idle already (acks_visible _ ▸ count)
  | twice filled ends idle first count =>
    exact .twice filled (fills_visible _ ▸ ends) idle first (acks_visible _ ▸ count)

/-- A run acknowledges every filled game once, and every search at most once, exactly when each game
that it fills is filled by an ack like its own. -/
theorem acks_once_iff (inputs : List (Input Counter)) :
    let run := react.trace (MatchManager.new id) inputs
    AcksOnce run ↔ ∀ moment ∈ run, moment.before.Fills moment.input.event →
      moment.before.AckedAlready moment.input.event := by
  intro run
  constructor
  · intro once moment member filled
    cases trace_acknowledges id inputs member with
    | waits unfilled => exact absurd filled unfilled
    | once _ _ _ already => exact already
    | twice _ ends _ _ count =>
      rw [once.filled moment member ends] at count
      cases count
  · intro already
    have ends : ∀ moment ∈ run, acks moment.outputs = 0 ∨
        acks moment.outputs = 1 ∧ moment.after.matchAgent.state = .idle := by
      intro moment member
      cases trace_acknowledges id inputs member with
      | waits _ _ silent => exact .inl silent
      | once _ _ idle _ count => exact .inr ⟨count, idle⟩
      | twice filled _ _ first => exact absurd (already moment member filled) first
    refine ⟨fun moment member filled => ?_, fun earlier life later split one => ?_⟩
    · cases trace_acknowledges id inputs member with
      | waits _ ends => exact absurd (ends.symm.trans filled) (by decide)
      | once _ _ _ _ count => exact count
      | twice filled _ _ first => exact absurd (already moment member filled) first
    · have inside : life <:+: run := ⟨earlier, later, split.symm⟩
      have chain := react.trace_chain (MatchManager.new id) inputs
      rw [show react.trace (MatchManager.new id) inputs = _ from split] at chain
      exact acks_of_life chain.left_of_append.right_of_append one
        fun moment member => ends moment (inside.subset member)

example :
    let matchId := getMatchID (.small 1) (.string "chess")
    let run := react.trace (MatchManager.new (.small 1) : MatchManager Int)
      [.still 0 (.receive (.advertise ⟨.small 93, .string "hess", 1⟩)),
        .still 1 (.receive (.claim ⟨matchId, .small 2, 1⟩)),
        .still 2 (.findMatch ["chess", "hess"] 1 7),
        .still 3 (.receive (.ack ⟨matchId, .small 2⟩))]
    run.map (fun moment => (fills moment.outputs, acks moment.outputs)) =
      [(false, 0), (false, 0), (false, 0), (true, 1)] := by decide +kernel

theorem acks_twice :
    ¬AcksOnce (react.trace (MatchManager.new (.small 1) : MatchManager Int)
      [.still 0 (.findMatch ["chess"] 1 7),
        .still 1 (.receive (.claim ⟨getMatchID (.small 1) (.string "chess"), .small 2, 1⟩))]) := by
  intro once
  have two := once.filled _ (List.mem_cons_of_mem _ List.mem_cons_self) (by decide +kernel)
  exact absurd two (by decide +kernel)

end MatchManager

end RoundTable.Matcher
