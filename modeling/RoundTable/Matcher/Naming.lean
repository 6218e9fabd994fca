import RoundTable.Matcher.Searches

set_option autoImplicit false

namespace RoundTable.Matcher

open Reactive

variable {Counter : Type}

-- The matches that are advertised to a manager, and those that it is asked to advertise.
def Event.Names (id : PublicKey) : Event Counter → PublicKey → MatchField → Prop
  | .receive (.advertise msg), advertiser, match_ =>
    advertiser = msg.advertiser ∧ match_ = msg.match_
  | .findMatch targetMatch _ _, advertiser, match_ =>
    advertiser = id ∧ match_ = advertised targetMatch
  | _, _, _ => False

def Named (id : PublicKey) (inputs : List (Input Counter)) (advertiser : PublicKey)
    (match_ : MatchField) : Prop :=
  ∃ input ∈ inputs, input.event.Names id advertiser match_

def Distinct (named : PublicKey → MatchField → Prop) : Prop :=
  ∀ advertiser match_ advertiser' match_', named advertiser match_ → named advertiser' match_' →
    getMatchID advertiser match_ = getMatchID advertiser' match_' →
      advertiser = advertiser' ∧ match_ = match_'

theorem Distinct.of_two {named : PublicKey → MatchField → Prop} (first second : PublicKey)
    (match_ match_' : MatchField)
    (two : ∀ advertiser game, named advertiser game →
      advertiser = first ∧ game = match_ ∨ advertiser = second ∧ game = match_')
    (differ : getMatchID first match_ ≠ getMatchID second match_') : Distinct named := by
  intro advertiser game advertiser' game' isNamed isNamed' same
  rcases two _ _ isNamed with ⟨rfl, rfl⟩ | ⟨rfl, rfl⟩ <;>
    rcases two _ _ isNamed' with ⟨rfl, rfl⟩ | ⟨rfl, rfl⟩
  · exact ⟨rfl, rfl⟩
  · exact absurd same differ
  · exact absurd same.symm differ
  · exact ⟨rfl, rfl⟩

structure MatchManager.Names (named : PublicKey → MatchField → Prop)
    (manager : MatchManager Counter) : Prop where
  entries : manager.matchMap.All fun _ entry => named entry.advertiser entry.match_
  targets : ∀ targetMatch, manager.matchAgent.targetMatch = some targetMatch →
    named manager.matchAgent.id (advertised targetMatch)
  joins : ∀ matchId, manager.Joins matchId → ∃ advertiser target targetMatch,
    named advertiser (.string target) ∧ advertiser ≠ manager.matchAgent.id ∧
      matchId = getMatchID advertiser (.string target) ∧
        manager.matchAgent.targetMatch = some targetMatch ∧ target ∈ targetMatch

theorem MatchManager.new_names [IntCast Counter] (named : PublicKey → MatchField → Prop)
    (id : PublicKey) : (MatchManager.new id : MatchManager Counter).Names named where
  entries := AList.All.empty
  targets _ none := by cases none
  joins _ joins := by cases joins.1

theorem MatchManager.clear_names {named : PublicKey → MatchField → Prop}
    {manager : MatchManager Counter}
    (entries : manager.matchMap.All fun _ entry => named entry.advertiser entry.match_) :
    manager.clear.Names named where
  entries := entries
  targets _ none := by cases none
  joins _ joins := by cases joins.1

section Step

variable {named : PublicKey → MatchField → Prop} {manager after : MatchManager Counter}
variable {actions : List (Output Counter)}

theorem Search.joins_named {targetMatch : List String} {counter : Counter} {callback : Callback}
    (search : Search manager targetMatch counter callback actions after)
    (sound : manager.matchMap.All MatchState.Sound)
    (entries : manager.matchMap.All fun _ entry => named entry.advertiser entry.match_)
    {matchId : String} (joins : after.Joins matchId) :
    ∃ advertiser target targetMatch, named advertiser (.string target) ∧
      advertiser ≠ after.matchAgent.id ∧ matchId = getMatchID advertiser (.string target) ∧
        after.matchAgent.targetMatch = some targetMatch ∧ target ∈ targetMatch := by
  cases search with
  | join entry now held open_ =>
    simp only [joinable, Bool.and_eq_true, List.any_eq_true, decide_eq_true_eq] at open_
    obtain ⟨⟨⟨target, member, offered⟩, other⟩, -⟩ := open_
    obtain rfl : entry.matchId = matchId := Option.some.inj joins.2
    refine ⟨entry.advertiser, target, targetMatch, offered ▸ entries _ _ held, other, ?_, rfl, member⟩
    rw [← offered, (sound _ _ held).identified]
  | serve => cases joins.1
  | fill => cases joins.1

theorem Search.kept_targets {targetMatch : List String} {counter : Counter} {callback : Callback}
    (search : Search manager targetMatch counter callback actions after)
    (own : named manager.matchAgent.id (Matcher.advertised targetMatch)) (held : List String)
    (kept : after.matchAgent.targetMatch = some held) :
    named after.matchAgent.id (Matcher.advertised held) := by
  obtain rfl := search.targets held kept
  cases search <;> exact own

variable {event : Event Counter} (effect : Effect manager event actions after)
variable (names : manager.Names named)
variable (named_by : ∀ advertiser match_, event.Names manager.matchAgent.id advertiser match_ →
  named advertiser match_)

include effect names named_by

theorem Effect.advertises_named {msg : MatchAdvertiseMessage Counter}
    (published : .publish (.advertise msg) ∈ actions) : named msg.advertiser msg.match_ := by
  cases effect with
  | passedOver entry user targetMatch callback actions after held joins other targets waiting search =>
    rw [search.advertised published]
    exact names.targets targetMatch targets
  | started targetMatch counter callback actions after idle search =>
    rw [search.advertised published]
    exact named_by _ _ ⟨rfl, rfl⟩
  | restarted time targetMatch callback actions after due targets waiting search =>
    rw [search.advertised published]
    exact names.targets targetMatch targets
  | _ => simp at published

theorem Effect.names_kept (inv : manager.Inv) : after.Names named := by
  have closed : Closed
      (fun _ (entry : MatchState Counter) => named entry.advertiser entry.match_)
      (fun msg => named msg.advertiser msg.match_) fun _ => True :=
    ⟨fun _ _ isNamed => isNamed, fun _ _ _ isNamed => isNamed, fun _ _ _ _ _ isNamed => isNamed⟩
  have entries := effect.all closed inv.keyed
    (fun _ published => effect.advertises_named names named_by published) (fun _ _ => trivial)
    (fun msg received => named_by _ _ (by rw [received]; exact ⟨rfl, rfl⟩)) (fun _ _ => trivial)
    names.entries
  cases effect with
  | passedOver entry user targetMatch callback actions after held joins other targets waiting search =>
    have sound := inv.sound _ _ held
    refine ⟨entries, search.kept_targets (names.targets _ targets), fun matchId joins' => ?_⟩
    exact search.joins_named (inv.sound.insert ⟨rfl, sound.identified, sound.claimants⟩)
      (names.entries.insert (names.entries _ entry held)) joins'
  | started targetMatch counter callback actions after idle search =>
    refine ⟨entries, search.kept_targets (named_by _ _ ⟨rfl, rfl⟩), fun matchId joins' => ?_⟩
    exact search.joins_named inv.sound names.entries joins'
  | restarted time targetMatch callback actions after due targets waiting search =>
    refine ⟨entries, search.kept_targets (names.targets _ targets), fun matchId joins' => ?_⟩
    exact search.joins_named inv.sound names.entries joins'
  | hosted | joined => exact MatchManager.clear_names entries
  | unadvertised matchId callback throws | stopped callback throws =>
    cases throws
    · exact MatchManager.clear_names entries
    · exact ⟨entries, names.targets, names.joins⟩
  | _ => exact ⟨entries, names.targets, names.joins⟩

end Step

theorem Distinct.same {named : PublicKey → MatchField → Prop} (distinct : Distinct named)
    {manager : MatchManager Counter} (inv : manager.Inv) (names : manager.Names named)
    {key : String} {entry : MatchState Counter} (held : manager.matchMap.lookup key = some entry)
    {advertiser : PublicKey} {match_ : MatchField} (isNamed : named advertiser match_)
    (same : key = getMatchID advertiser match_) :
    entry.advertiser = advertiser ∧ entry.match_ = match_ :=
  distinct _ _ _ _ (names.entries key entry held) isNamed
    ((inv.sound key entry held).identified.trans same)

end RoundTable.Matcher
