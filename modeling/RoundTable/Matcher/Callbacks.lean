import RoundTable.Matcher.Completions

set_option autoImplicit false

namespace RoundTable.Matcher

open Reactive Requests

variable {Counter : Type}

def Output.calls : Output Counter → Bool
  | .callback _ _ _ => true
  | _ => false

structure MatchManager.Free (manager : MatchManager Counter) : Prop where
  idle : manager.matchAgent.state = .idle
  matchId : manager.matchAgent.matchId = none
  targetMatch : manager.matchAgent.targetMatch = none
  matchCallback : manager.matchAgent.matchCallback = none
  accepts : ∀ env : Env Counter, env.realm = .pristine → ∀ targetMatch counter callback,
    manager.accepts env targetMatch counter callback = true

/-- An event that calls the callback of a search frees the agent, and the callback is not called
again before it is accepted again. -/
structure CallsOnce (moments : List (Moment Counter)) : Prop where
  frees : ∀ moment ∈ moments, moment.outputs.any Output.calls = true → moment.after.Free
  once : ∀ callback before between after, moments.flatMap marks =
    before ++ .answered callback :: between ++ .answered callback :: after →
      .accepted callback ∈ between

section Step

variable {manager after : MatchManager Counter} {event : Event Counter}
variable {actions : List (Output Counter)}

theorem calls_visible (outputs : List (Output Counter)) :
    (visible outputs).any Output.calls = outputs.any Output.calls := by
  rw [visible, List.any_filter]
  exact congrArg (List.any outputs) (funext fun output => by cases output <;> rfl)

theorem MatchManager.Inv.free (inv : manager.Inv) (idle : manager.matchAgent.state = .idle) :
    manager.Free := by
  have consistent := inv.consistent
  simp only [MatchAgent.Consistent, idle] at consistent
  obtain ⟨noId, noTargets, noCallback⟩ := consistent
  exact ⟨idle, noId, noTargets, noCallback, fun env clean targetMatch counter callback =>
    (accepts_eq manager env clean targetMatch counter callback).mpr idle⟩

theorem Search.frees {targetMatch : List String} {counter : Counter} {callback : Callback}
    (search : Search manager targetMatch counter callback actions after)
    (calls : actions.any Output.calls = true) : after.matchAgent.state = .idle := by
  cases search with
  | join | serve => cases calls
  | fill => rfl

-- Only `stopMatch` calls a callback and goes on to depend on what it does.
theorem Effect.frees (effect : Effect manager event actions after)
    (calls : actions.any Output.calls = true) :
    after.matchAgent.state = .idle ∨ event = .stopMatch ∧ manager.matchAgent.state ≠ .idle := by
  cases effect with
  | hosted | joined => exact .inl rfl
  | passedOver _ _ _ _ _ _ _ _ _ _ _ search | started _ _ _ _ _ _ search
    | restarted _ _ _ _ _ _ _ _ search => exact .inl (search.frees calls)
  | unadvertised matchId callback throws serves waiting => exact .inr ⟨rfl, by simp [serves.1]⟩
  | stopped callback throws joining waiting => exact .inr ⟨rfl, by simp [joining]⟩
  | _ => cases calls

theorem Effect.stop_calls (effect : Effect manager .stopMatch actions after)
    (busy : manager.matchAgent.state ≠ .idle) : actions.any Output.calls = true := by
  cases effect with
  | quiet _ quiet => exact absurd quiet busy
  | unadvertised | stopped => rfl

end Step

namespace MatchManager

variable [IntCast Counter] (id : PublicKey)

/-- However callbacks throw, a run calls every callback once and frees the agent with it, exactly
when none throws as `stopMatch` calls it. -/
theorem calls_once_iff (inputs : List (Input Counter)) :
    let run := react.trace (MatchManager.new id) inputs
    CallsOnce run ↔ ∀ moment ∈ run, ¬StopThrows moment := by
  intro run
  have stopped (moment : Moment Counter) (member : moment ∈ run)
      (stops : moment.input.event = .stopMatch) (busy : moment.before.matchAgent.state ≠ .idle) :
      moment.outputs.any Output.calls = true ∧ moment.after.matchAgent =
        if moment.input.env.callbackThrows 0 then moment.before.matchAgent
        else moment.before.matchAgent.clear := by
    obtain ⟨inv, effect⟩ := trace_effects id inputs member
    obtain ⟨-, -, answer⟩ := react.trace_mem member
    have agent :=
      moment.before.stopMatch_agent inv moment.input.env moment.input.pristine busy
    rw [← stops, ← react, ← answer] at agent
    rw [stops] at effect
    exact ⟨calls_visible moment.outputs ▸ effect.stop_calls busy, agent⟩
  constructor
  · intro once moment member stop
    obtain ⟨calls, agent⟩ := stopped moment member stop.stops stop.busy
    have idle := (once.frees moment member calls).idle
    rw [agent, stop.throws, if_pos rfl] at idle
    exact stop.busy idle
  · intro calm
    refine ⟨fun moment member calls => ?_, fun callback before between after split => ?_⟩
    · obtain ⟨inv, effect⟩ := trace_effects id inputs member
      refine (effect.inv inv).free ?_
      rcases effect.frees (calls_visible moment.outputs ▸ calls) with idle | ⟨stops, busy⟩
      · exact idle
      · obtain ⟨-, agent⟩ := stopped moment member stops busy
        have returns : moment.input.env.callbackThrows 0 = false :=
          Bool.eq_false_iff.mpr fun throws => calm moment member ⟨stops, busy, throws⟩
        rw [agent, returns]
        rfl
    · exact (run_served id inputs calm).accepted_between split

theorem callback_called_twice :
    let run := react.trace (MatchManager.new (.small 1) : MatchManager Int)
      [.still 0 (.findMatch ["chess"] 1 7), ⟨.throwing 1, .stopMatch, rfl⟩,
        .still 2 (.findMatch ["go"] 1 8), .still 3 .stopMatch]
    run.flatMap marks = [.accepted 7, .answered 7, .answered 7] ∧ ¬CallsOnce run := by
  intro run
  have marked : run.flatMap marks = [.accepted 7, .answered 7, .answered 7] := by decide +kernel
  refine ⟨marked, fun once => ?_⟩
  have accepted := once.once 7 [.accepted 7] [] [] marked
  cases accepted

end MatchManager

end RoundTable.Matcher
