import RoundTable.Matcher.Invariant
import RoundTable.Shared.Requests

set_option autoImplicit false

namespace RoundTable.Matcher

open Reactive Requests

variable {Counter : Type}

abbrev Moment (Counter : Type) :=
  Record Unit (MatchManager Counter) (Input Counter) (Output Counter)

def MatchManager.accepts (manager : MatchManager Counter) (env : Env Counter)
    (targetMatch : List String) (counter : Counter) (callback : Callback) : Bool :=
  match startMatch env (handleMatchStateUpdate env env.stack) targetMatch counter callback
      ⟨manager, 0, []⟩ with
  | .ok accepted _ => accepted
  | .error _ _ => false

def Output.answer : Output Counter → Option (Mark Callback)
  | .callback _ called _ => some (.answered called)
  | _ => none

def Event.request (manager : MatchManager Counter) (env : Env Counter) :
    Event Counter → List (Mark Callback)
  | .findMatch targetMatch counter callback =>
    if manager.accepts env targetMatch counter callback then [.accepted callback] else []
  | _ => []

-- The search that an event starts, before the searches that it ends.
def marks (moment : Moment Counter) : List (Mark Callback) :=
  moment.input.event.request moment.before moment.input.env ++
    moment.outputs.filterMap Output.answer

theorem accepts_eq (manager : MatchManager Counter) (env : Env Counter)
    (clean : env.realm = .pristine) (targetMatch : List String) (counter : Counter)
    (callback : Callback) :
    manager.accepts env targetMatch counter callback = true ↔ manager.matchAgent.state = .idle := by
  let turn : Turn Counter := ⟨manager, 0, []⟩
  unfold MatchManager.accepts
  by_cases idle : turn.manager.matchAgent.state = .idle
  · rw [startMatch_run env clean _ _ _ _ turn idle]
    simpa using idle
  · rw [startMatch_refused env _ _ _ _ turn idle]
    simpa using idle

theorem filterMap_answer_visible (outputs : List (Output Counter)) :
    (visible outputs).filterMap Output.answer = outputs.filterMap Output.answer := by
  rw [visible, List.filterMap_filter]
  congr 1
  funext output
  cases output <;> rfl

section Step

variable {manager after : MatchManager Counter} {event : Event Counter}
variable {actions : List (Output Counter)}

theorem answer_acks (entry : MatchState Counter) (user : PublicKey) :
    (entry.acks user).filterMap Output.answer = [] := by
  unfold MatchState.acks
  split <;> rfl

theorem Search.served {targetMatch : List String} {counter : Counter} {callback : Callback}
    {before : List (Mark Callback)}
    (search : Search manager targetMatch counter callback actions after)
    (served : Served before (some callback)) :
    Served (before ++ actions.filterMap Output.answer) after.matchAgent.matchCallback := by
  have unanswered : Served (before ++ []) (some callback) := by rwa [List.append_nil]
  cases search with
  | join | serve => exact unanswered
  | fill =>
    simp only [List.cons_append, List.filterMap_cons, Output.answer, List.filterMap_append,
      answer_acks, List.nil_append]
    exact served.answered

theorem Effect.served (effect : Effect manager event actions after) (env : Env Counter)
    (clean : env.realm = .pristine) (inv : manager.Inv)
    (stops : event = .stopMatch → after.matchAgent.matchCallback = none)
    {before : List (Mark Callback)} (served : Served before manager.matchAgent.matchCallback) :
    Served (before ++ (event.request manager env ++ actions.filterMap Output.answer))
      after.matchAgent.matchCallback := by
  have unmarked : Served (before ++ []) manager.matchAgent.matchCallback := by
    rwa [List.append_nil]
  cases effect with
  | quiet event quiet =>
    cases event with
    | findMatch targetMatch counter callback =>
      have refused : manager.accepts env targetMatch counter callback = false := by
        rw [← Bool.not_eq_true, accepts_eq manager env clean]
        exact quiet
      simpa [Event.request, refused] using served
    | _ => exact unmarked
  | listening | expired | advertised | withdrawn | claimed | filled => exact unmarked
  | hosted entry user counter callback held first serves waiting =>
    rw [waiting] at served
    exact served.answered
  | joined entry callback held joins waiting =>
    rw [waiting] at served
    exact served.answered
  | passedOver entry user targetMatch callback actions after held joins other targets waiting search =>
    rw [waiting] at served
    exact search.served served
  | started targetMatch counter callback actions after idle search =>
    have accepted := (accepts_eq manager env clean targetMatch counter callback).mpr idle
    have free : manager.matchAgent.matchCallback = none := by
      have consistent := inv.consistent
      simp only [MatchAgent.Consistent, idle] at consistent
      exact consistent.2.2
    rw [free] at served
    simpa [Event.request, accepted] using search.served (served.accepted callback)
  | restarted time targetMatch callback actions after due targets waiting search =>
    rw [waiting] at served
    exact search.served served
  | unadvertised matchId callback throws serves waiting =>
    rw [waiting] at served
    rw [stops rfl]
    exact served.answered
  | stopped callback throws joining waiting =>
    rw [waiting] at served
    rw [stops rfl]
    exact served.answered

end Step

structure StopThrows (moment : Moment Counter) : Prop where
  stops : moment.input.event = .stopMatch
  busy : moment.before.matchAgent.state ≠ .idle
  throws : moment.input.env.callbackThrows 0 = true

namespace MatchManager

-- A callback that throws keeps `stopMatch` from clearing the agent.
theorem stopMatch_agent (manager : MatchManager Counter) (inv : manager.Inv) (env : Env Counter)
    (clean : env.realm = .pristine) (busy : manager.matchAgent.state ≠ .idle) :
    (manager.handle env .stopMatch).1.matchAgent =
      if env.callbackThrows 0 then manager.matchAgent else manager.matchAgent.clear := by
  obtain ⟨-, callback, matchId, -, waiting, current, nonempty⟩ := inv.consistent.waits busy
  simp only [handle, Event.handler, Handler.turn, stopMatch, bind_run, getAgent_run]
  cases state : manager.matchAgent.state with
  | idle => exact absurd state busy
  | servingWaitingClaims =>
    cases throws : env.callbackThrows 0 <;>
      simp [truthy_of_ne_empty current nonempty, sendMessage_run env clean, Turn.sendMessage,
        Turn.handleMessage, matchCallback, waiting, throws, Turn.emit, Turn.setMap, Turn.asked,
        Turn.clearState, Turn.setAgent]
  | joiningWaitingAck =>
    cases throws : env.callbackThrows 0 <;>
      simp [matchCallback, waiting, throws, Turn.emit, Turn.asked, Turn.clearState, Turn.setAgent]

theorem stopMatch_frees (manager : MatchManager Counter) (inv : manager.Inv) (env : Env Counter)
    (clean : env.realm = .pristine)
    (calm : manager.matchAgent.state ≠ .idle → env.callbackThrows 0 = false) :
    (manager.handle env .stopMatch).1.matchAgent.matchCallback = none := by
  by_cases idle : manager.matchAgent.state = .idle
  · have consistent := inv.consistent
    simp only [MatchAgent.Consistent, idle] at consistent
    simp only [handle, Event.handler, Handler.turn, stopMatch, bind_run, getAgent_run, idle]
    exact consistent.2.2
  · rw [manager.stopMatch_agent inv env clean idle, calm idle]
    rfl

variable [IntCast Counter] (id : PublicKey)

theorem trace_effects (inputs : List (Input Counter)) {moment : Moment Counter}
    (member : moment ∈ react.trace (MatchManager.new id) inputs) :
    moment.before.Inv ∧
      Effect moment.before moment.input.event (visible moment.outputs) moment.after := by
  obtain ⟨-, ⟨before, start⟩, answer⟩ := react.trace_mem member
  have inv : moment.before.Inv := start ▸ run_inv id before
  have effect := moment.before.react_effect inv moment.input
  rw [← answer] at effect
  exact ⟨inv, effect⟩

theorem run_served (inputs : List (Input Counter))
    (calm : ∀ moment ∈ react.trace (MatchManager.new id) inputs, ¬StopThrows moment) :
    Served ((react.trace (MatchManager.new id) inputs).flatMap marks)
      (react.run (MatchManager.new id) inputs).1.matchAgent.matchCallback := by
  refine (react.trace_steps (fun manager moments => manager.Inv ∧
    Served (moments.flatMap marks) manager.matchAgent.matchCallback) _ inputs
    ⟨new_inv id, .start⟩ fun moment member answer moments kept => ?_).2
  obtain ⟨inv, served⟩ := kept
  have effect := moment.before.react_effect inv moment.input
  rw [← answer] at effect
  refine ⟨effect.inv inv, ?_⟩
  have next := effect.served moment.input.env moment.input.pristine inv (fun isStop => ?_) served
  · simpa [marks, filterMap_answer_visible] using next
  · have reached : moment.after = (moment.before.react moment.input).1 := congrArg Prod.fst answer
    rw [reached, react, isStop]
    refine moment.before.stopMatch_frees inv moment.input.env moment.input.pristine fun busy => ?_
    exact Bool.eq_false_iff.mpr fun throws => calm moment member ⟨isStop, busy, throws⟩

/-- Every call of a callback answers the search accepted right before it, and the agent is busy
exactly while the last search accepted has not been answered. -/
theorem completes_once (inputs : List (Input Counter))
    (calm : ∀ input ∈ inputs, ∀ n, input.env.callbackThrows n = false) :
    let run := (react.trace (MatchManager.new id) inputs).flatMap marks
    (∀ before callback after, run = before ++ .answered callback :: after →
      ∃ earlier, before = earlier ++ [.accepted callback]) ∧
    (∀ callback, run.count (.answered callback) ≤ run.count (.accepted callback)) ∧
    ((react.run (MatchManager.new id) inputs).1.matchAgent.state ≠ .idle ↔
      ∃ callback, run.getLast? = some (.accepted callback)) := by
  intro run
  have served := run_served id inputs fun moment member stop =>
    absurd stop.throws (by simp [calm moment.input ((react.trace_mem member).1) 0])
  refine ⟨fun before callback after => served.answers, served.count_answered_le, ?_⟩
  rw [← served.waits_iff]
  have consistent := (run_inv id inputs : (react.run (MatchManager.new id) inputs).1.Inv).consistent
  constructor
  · intro busy
    obtain ⟨-, callback, -, -, waiting, -⟩ := consistent.waits busy
    simp [waiting]
  · intro waits idle
    simp only [MatchAgent.Consistent, idle] at consistent
    exact waits consistent.2.2

theorem completes_once_hosted :
    let run := (react.trace (MatchManager.new (.small 1) : MatchManager Int)
      [.still 0 (.findMatch ["chess"] 1 7), .still 0 (.findMatch ["go"] 1 8),
        .still 1 (.receive (.claim ⟨getMatchID (.small 1) (.string "chess"), .small 2, 1⟩))]).flatMap
          marks
    run = [.accepted 7, .answered 7] ∧
      ∀ callback, run.count (.answered callback) ≤ run.count (.accepted callback) := by
  refine ⟨by decide +kernel, (completes_once (.small 1) _ ?_).2.1⟩
  simp [Input.still, Env.still]

end MatchManager

end RoundTable.Matcher
