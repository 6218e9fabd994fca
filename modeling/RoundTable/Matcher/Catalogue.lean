import RoundTable.Matcher.Pairing
import RoundTable.Matcher.Publishing
import RoundTable.Matcher.Serving

set_option autoImplicit false

namespace RoundTable.Matcher

open Reactive

variable {Counter : Type}

inductive Fact (Counter : Type) where
  | heard (seen : Int) (msg : Message Counter)
  | timedOut (now : Int)

def Fact.list (matchId : String) (listed : Option (MatchState Counter)) :
    Fact Counter → Option (MatchState Counter)
  | .heard seen (.advertise msg) =>
    if getMatchID msg.advertiser msg.match_ = matchId then
      match listed with
      | some entry => some { entry with lastSeen := seen }
      | none => some (.new msg.advertiser msg.counter msg.match_ seen)
    else listed
  | .heard _ (.unadvertise msg) => if msg.matchId = matchId then none else listed
  | .heard _ (.claim msg) =>
    if msg.matchId = matchId then
      listed.map fun entry =>
        if entry.claimsSeen.any (fun claim => claim.1 = msg.user) then entry
        else entry.pushClaim msg.user msg.counter
    else listed
  | .heard _ (.ack msg) => if msg.matchId = matchId then none else listed
  | .timedOut now => listed.filter (MatchState.fresh now)

def Output.message : Output Counter → Option (Message Counter)
  | .publish msg => some msg
  | _ => none

-- The facts of one event, in the order in which they take effect. The handler of an ack drops the
-- entry at its end, and an advert of a search is handled at the third reading of the clock.
def factsOf (env : Env Counter) (event : Event Counter) (outputs : List (Output Counter)) :
    List (Fact Counter) :=
  let sent := (outputs.filterMap Output.message).map (Fact.heard (env.clock 2))
  match event with
  | .receive (.ack msg) => sent ++ [.heard (env.clock 0) (.ack msg)]
  | .receive msg => .heard (env.clock 0) msg :: sent
  | .checkTimeouts _ => .timedOut (env.clock 0) :: sent
  | _ => sent

def facts (moment : Moment Counter) : List (Fact Counter) :=
  factsOf moment.input.env moment.input.event moment.outputs

theorem factsOf_visible (env : Env Counter) (event : Event Counter)
    (outputs : List (Output Counter)) :
    factsOf env event (visible outputs) = factsOf env event outputs := by
  have same : (visible outputs).filterMap Output.message = outputs.filterMap Output.message := by
    rw [visible, List.filterMap_filter]
    congr 1
    funext output
    cases output <;> rfl
  unfold factsOf
  rw [same]

section Step

variable {manager after : MatchManager Counter} {actions : List (Output Counter)}

theorem list_acks (seen : Int) (matchId : String) (listed : Option (MatchState Counter))
    (entry : MatchState Counter) (user : PublicKey) :
    (((entry.acks user).filterMap Output.message).map (Fact.heard seen)).foldl (Fact.list matchId)
      listed = if entry.matchId = matchId then none else listed := by
  unfold MatchState.acks
  by_cases named : entry.matchId = matchId <;> split <;> simp [Output.message, Fact.list, named]

theorem list_advert (seen : Int) (matchId : String) (msg : MatchAdvertiseMessage Counter)
    (keyed : manager.matchMap.Keyed) :
    Fact.list matchId (manager.matchMap.lookup matchId) (.heard seen (.advertise msg)) =
      (manager.put (manager.matchMap.advertised msg seen)).matchMap.lookup matchId := by
  rw [MatchManager.put, AList.lookup_insert_of, advertised_matchId keyed]
  by_cases named : getMatchID msg.advertiser msg.match_ = matchId
  · subst named
    simp only [Fact.list, if_true, MatchMap.advertised]
    cases manager.matchMap.lookup (getMatchID msg.advertiser msg.match_) <;> rfl
  · simp [Fact.list, named, Ne.symm named]

theorem list_claim (seen : Int) (matchId : String) {entry : MatchState Counter} (user : PublicKey)
    (counter : Counter) (held : manager.matchMap.lookup entry.matchId = some entry)
    (first : ∀ claim ∈ entry.claimsSeen, claim.1 ≠ user) :
    Fact.list matchId (manager.matchMap.lookup matchId)
        (.heard seen (.claim ⟨entry.matchId, user, counter⟩)) =
      (manager.put (entry.pushClaim user counter)).matchMap.lookup matchId := by
  have unseen : entry.claimsSeen.any (fun claim => claim.1 = user) = false := by
    simpa using first
  rw [MatchManager.put, AList.lookup_insert_of]
  by_cases named : entry.matchId = matchId
  · subst named
    simp [Fact.list, held, unseen, MatchState.pushClaim]
  · simp [Fact.list, named, Ne.symm named]

theorem Search.listed {targetMatch : List String} {counter : Counter} {callback : Callback}
    (search : Search manager targetMatch counter callback actions after)
    (keyed : manager.matchMap.Keyed) (matchId : String) (now : Int)
    (clocked : ∀ entry, after.Serves matchId → after.matchMap.lookup matchId = some entry →
      entry.lastSeen = now) :
    after.matchMap.lookup matchId =
      ((actions.filterMap Output.message).map (Fact.heard now)).foldl (Fact.list matchId)
        (manager.matchMap.lookup matchId) := by
  cases search with
  | join entry acted held open_ =>
    simp only [List.filterMap_cons, List.filterMap_nil, Output.message, List.map_cons, List.map_nil,
      List.foldl_cons, List.foldl_nil, Fact.list, MatchManager.joining]
    by_cases named : entry.matchId = matchId
    · subst named
      rw [if_pos rfl, held, Option.map_some]
      split
      next => exact held
      next => exact AList.lookup_insert _
    · rw [if_neg named]
      split
      next => rfl
      next => exact AList.lookup_insert_ne (Ne.symm named)
  | serve entry acted seen closed own unclaimed =>
    have named := advertised_matchId keyed (manager.advert targetMatch counter) seen
    rw [← own] at named
    show (manager.put entry).matchMap.lookup matchId = Fact.list matchId
      (manager.matchMap.lookup matchId) (.heard now (.advertise (manager.advert targetMatch counter)))
    rw [list_advert now matchId _ keyed]
    by_cases own' : entry.matchId = matchId
    · have time : entry.lastSeen = now := clocked entry ⟨rfl, congrArg some own'⟩
        (own' ▸ AList.lookup_insert _)
      rw [own, advertised_lastSeen] at time
      rw [own, time]
    · simp only [MatchManager.put, AList.lookup_insert_of, advertised_matchId keyed, ← named,
        Ne.symm own', if_false]
  | fill entry acted seen user claimCounter rest closed own claims =>
    have named := advertised_matchId keyed (manager.advert targetMatch counter) seen
    rw [← own] at named
    simp only [List.cons_append, List.filterMap_cons, List.filterMap_append, List.filterMap_nil,
      Output.message, List.append_nil, List.map_cons, List.foldl_cons, list_acks,
      list_advert now matchId _ keyed, MatchManager.clear, MatchManager.drop, MatchManager.serving,
      MatchManager.put, AList.lookup_erase_of, AList.lookup_insert_of, advertised_matchId keyed,
      ← named, eq_comm (a := matchId)]
    split <;> rfl

theorem quiet_listed (env : Env Counter) {event : Event Counter} (quiet : manager.Quiet event)
    (matchId : String) :
    manager.matchMap.lookup matchId =
      (factsOf env event []).foldl (Fact.list matchId) (manager.matchMap.lookup matchId) := by
  cases event with
  | receive msg =>
    cases msg with
    | claim msg =>
      cases held : manager.matchMap.lookup matchId with
      | none => simp [factsOf, Fact.list]
      | some entry =>
        by_cases named : msg.matchId = matchId
        · subst named
          obtain ⟨claim, member, known⟩ := quiet entry held
          have seen : entry.claimsSeen.any (fun claim => claim.1 = msg.user) = true :=
            List.any_eq_true.mpr ⟨claim, member, by simpa using known⟩
          simp [factsOf, Fact.list, seen]
        · simp [factsOf, Fact.list, named]
    | ack msg =>
      by_cases named : msg.matchId = matchId
      · subst named
        simpa [factsOf, Fact.list, MatchManager.Quiet] using quiet
      · simp [factsOf, Fact.list, named]
    | advertise | unadvertise => exact quiet.elim
  | findMatch | stopMatch | poll | receiveMalformed => rfl
  | checkTimeouts | addMatchListener => exact quiet.elim

variable (env : Env Counter) (event : Event Counter)

structure Timed (manager : MatchManager Counter) (actions : List (Output Counter))
    (after : MatchManager Counter) : Prop where
  acted : actions.any Output.acts = true → Clocked after (env.clock 1) (env.clock 2)
  received : ∀ msg, event = .receive (.advertise msg) →
    after = manager.put (manager.matchMap.advertised msg (env.clock 0))
  expired : ∀ time, event = .checkTimeouts time → ∀ key, after.matchMap.lookup key =
    (manager.matchMap.lookup key).filter (MatchState.fresh (env.clock 0))

variable {env event}

theorem Effect.listed (effect : Effect manager event actions after) (inv : manager.Inv)
    (timed : Timed env event manager actions after) (matchId : String) :
    after.matchMap.lookup matchId =
      (factsOf env event actions).foldl (Fact.list matchId) (manager.matchMap.lookup matchId) := by
  have clock (acts : actions.any Output.acts = true) (entry : MatchState Counter)
      (serves : after.Serves matchId) (held : after.matchMap.lookup matchId = some entry) :
      entry.lastSeen = env.clock 2 := by
    obtain rfl := (effect.inv inv).keyed matchId entry held
    exact (timed.acted acts).seen entry serves held
  have dropped (gone : String) : (manager.drop gone).matchMap.lookup matchId =
      if gone = matchId then none else manager.matchMap.lookup matchId := by
    rw [MatchManager.drop, AList.lookup_erase_of]
    simp only [eq_comm]
  cases effect with
  | quiet event quiet => exact quiet_listed env quiet matchId
  | listening => rfl
  | expired time now map fresh => exact timed.expired time rfl matchId
  | advertised msg seen =>
    rw [timed.received msg rfl]
    exact (list_advert (env.clock 0) matchId msg inv.keyed).symm
  | withdrawn gone => exact dropped gone
  | claimed entry user counter held first elsewhere =>
    exact (list_claim (env.clock 0) matchId user counter held first).symm
  | hosted entry user counter callback held first serves waiting =>
    -- both acks drop the entry that the claim has changed
    have claimed := list_claim (env.clock 0) matchId user counter held (by simp [first])
    rw [MatchManager.put, AList.lookup_insert_of] at claimed
    show (manager.drop entry.matchId).matchMap.lookup matchId = _
    rw [dropped]
    simp only [factsOf, Output.message, List.filterMap_cons, List.filterMap_nil, List.map_cons,
      List.map_nil, List.foldl_cons, List.foldl_nil, claimed]
    by_cases named : entry.matchId = matchId
    · simp [Fact.list, named]
    · simp [Fact.list, named, pushClaim_matchId, Ne.symm named]
  | filled entry user held elsewhere => exact dropped entry.matchId
  | joined entry callback held joins waiting => exact dropped entry.matchId
  | passedOver entry user targetMatch callback actions after held joins other targets waiting search =>
    -- what the search sends takes effect before the entry that was passed over goes
    simp only [factsOf, List.foldl_append, List.foldl_cons, List.foldl_nil]
    rw [Fact.list]
    simp only [MatchManager.drop, AList.lookup_erase_of, eq_comm (a := matchId)] at clock ⊢
    by_cases named : entry.matchId = matchId
    · rw [if_pos named, if_pos named]
    · have unchanged : (manager.put (entry.pushAck user)).matchMap.lookup matchId =
          manager.matchMap.lookup matchId := AList.lookup_insert_ne (Ne.symm named)
      simp only [named, if_false] at clock ⊢
      rw [← unchanged]
      exact search.listed (inv.keyed.insert rfl) matchId _ (clock search.acts)
  | started targetMatch counter callback actions after idle search =>
    exact search.listed inv.keyed matchId _ (clock search.acts)
  | restarted time targetMatch callback actions after due targets waiting search =>
    exact search.listed inv.keyed matchId _ (clock search.acts)
  | unadvertised gone callback throws serves waiting =>
    cases throws <;> exact dropped gone
  | stopped callback throws joining waiting => cases throws <;> rfl

variable (env : Env Counter) (clean : env.realm = .pristine) (manager : MatchManager Counter)
variable (inv : manager.Inv)

include clean inv

theorem advertise_handled (msg : MatchAdvertiseMessage Counter) :
    (manager.handle env (.receive (.advertise msg))).1 =
      manager.put (manager.matchMap.advertised msg (env.clock 0)) := by
  obtain ⟨depth, deep⟩ := Nat.exists_eq_add_of_le' env.stack_deep
  let entry := manager.matchMap.advertised msg (env.clock 0)
  let put : Turn Counter :=
    (Turn.asked ⟨manager, 0, []⟩).setMap (·.insert (getMatchID msg.advertiser msg.match_) entry)
  have quiet : ¬put.manager.Answers entry := inv.advertised_unanswered msg _
  have raised := raise_quiet env (depth + 2) entry put (getMatchID msg.advertiser msg.match_)
    (AList.lookup_insert _) (update_quiet env clean _ entry put quiet)
  simp only [receive_handle env clean, deep, Turn.handleMessage, Turn.handleAdvertise]
  rw [MatchManager.put, advertised_matchId inv.keyed]
  exact raised.1

theorem handle_listed (event : Event Counter) (matchId : String) :
    let after := manager.handle env event
    after.1.matchMap.lookup matchId =
      (factsOf env event after.2).foldl (Fact.list matchId) (manager.matchMap.lookup matchId) := by
  intro after
  rw [← factsOf_visible]
  refine (handle_effect env clean manager inv event).listed inv ⟨fun acts => ?acted,
    fun msg same => ?received, fun time same => ?expired⟩ matchId
  case acted =>
    rw [acts_visible] at acts
    exact handle_clocked env clean manager inv event acts
  case received =>
    subst same
    exact advertise_handled env clean manager inv msg
  case expired =>
    subst same
    obtain ⟨map, handled, fresh⟩ := checkTimeouts_handle env clean manager time
    rw [handled]
    exact fresh

end Step

namespace MatchManager

variable [IntCast Counter] (id : PublicKey)

/-- After any run, what is listed under a match is what the facts of the run say of it: the messages
that the manager has handled, its own among them, and the timeouts. -/
theorem lists_what_was_heard (inputs : List (Input Counter)) (matchId : String) :
    (react.run (MatchManager.new id) inputs).1.matchMap.lookup matchId =
      ((react.trace (MatchManager.new id) inputs).flatMap facts).foldl (Fact.list matchId) none := by
  refine react.trace_fold (fun manager => manager.matchMap.lookup matchId) (Fact.list matchId) facts
    (MatchManager.new id) inputs fun moment member => ?_
  obtain ⟨-, ⟨before, start⟩, answer⟩ := react.trace_mem member
  have inv : moment.before.Inv := start ▸ run_inv id before
  have listed := handle_listed moment.input.env moment.input.pristine moment.before inv
    moment.input.event matchId
  have same : (moment.after, moment.outputs) = moment.before.handle moment.input.env
    moment.input.event := answer
  rw [← same] at listed
  exact listed

end MatchManager

section Sources

structure Vouched (sent : Message Counter → Prop) (matchId : String) (entry : MatchState Counter) :
    Prop where
  advert : sent (.advertise ⟨entry.advertiser, entry.match_, entry.advertiserCounter⟩)
  claims : ∀ claim ∈ entry.claimsSeen, sent (.claim ⟨matchId, claim.1, claim.2⟩)

variable {sent : Message Counter → Prop} {matchId : String}

theorem Vouched.mono {sent' : Message Counter → Prop} {entry : MatchState Counter}
    (vouched : Vouched sent matchId entry) (weaker : ∀ msg, sent msg → sent' msg) :
    Vouched sent' matchId entry :=
  ⟨weaker _ vouched.advert, fun claim member => weaker _ (vouched.claims claim member)⟩

theorem Fact.list_vouched {listed : Option (MatchState Counter)} (fact : Fact Counter)
    (isSent : ∀ seen msg, fact = .heard seen msg → sent msg)
    (vouched : ∀ entry ∈ listed, Vouched sent matchId entry) :
    ∀ entry ∈ fact.list matchId listed, Vouched sent matchId entry := by
  intro entry isListed
  match fact with
  | .heard seen (.advertise msg) =>
    by_cases named : getMatchID msg.advertiser msg.match_ = matchId
    · cases listed with
      | none =>
        obtain rfl : _ = entry := by simpa [list, named] using isListed
        exact ⟨isSent seen _ rfl, fun _ member => absurd member List.not_mem_nil⟩
      | some old =>
        obtain rfl : _ = entry := by simpa [list, named] using isListed
        exact ⟨(vouched old rfl).advert, (vouched old rfl).claims⟩
    · exact vouched entry (by simpa [list, named] using isListed)
  | .heard _ (.unadvertise msg) | .heard _ (.ack msg) =>
    by_cases named : msg.matchId = matchId
    · simp [list, named] at isListed
    · exact vouched entry (by simpa [list, named] using isListed)
  | .heard seen (.claim msg) =>
    by_cases named : msg.matchId = matchId
    · simp only [list, named, if_true, Option.mem_def, Option.map_eq_some_iff] at isListed
      obtain ⟨old, isOld, rfl⟩ := isListed
      have before := vouched old isOld
      split
      next => exact before
      next =>
        refine ⟨before.advert, fun claim member => ?_⟩
        rcases List.mem_append.mp member with held | new
        · exact before.claims claim held
        · rw [List.mem_singleton.mp new, ← named]
          exact isSent seen _ rfl
    · exact vouched entry (by simpa [list, named] using isListed)
  | .timedOut now => exact vouched entry (Option.mem_filter_iff.mp isListed).1

theorem foldl_vouched {listed : Option (MatchState Counter)} (learned : List (Fact Counter))
    (areSent : ∀ seen msg, .heard seen msg ∈ learned → sent msg)
    (vouched : ∀ entry ∈ listed, Vouched sent matchId entry) :
    ∀ entry ∈ learned.foldl (Fact.list matchId) listed, Vouched sent matchId entry := by
  induction learned generalizing listed with
  | nil => exact vouched
  | cons fact learned ih =>
    refine ih (fun seen msg member => areSent seen msg (List.mem_cons_of_mem _ member)) ?_
    exact fact.list_vouched (fun seen msg same => areSent seen msg (same ▸ List.mem_cons_self)) vouched

theorem heard_in_step {env : Env Counter} {event : Event Counter} {outputs : List (Output Counter)}
    {seen : Int} {msg : Message Counter} (heard : .heard seen msg ∈ factsOf env event outputs) :
    event = .receive msg ∨ .publish msg ∈ outputs := by
  have own {now : Int}
      (member : .heard seen msg ∈ (outputs.filterMap Output.message).map (Fact.heard now)) :
      .publish msg ∈ outputs := by
    obtain ⟨_, published, same⟩ := List.mem_map.mp member
    obtain ⟨-, rfl⟩ := Fact.heard.inj same
    obtain ⟨output, isOutput, isMessage⟩ := List.mem_filterMap.mp published
    cases output with
    | publish msg' => exact Option.some.inj isMessage ▸ isOutput
    | callback | listener => cases isMessage
  match event with
  | .receive (.ack _) =>
    rcases List.mem_append.mp heard with sent | received
    · exact .inr (own sent)
    · exact .inl (by rw [(Fact.heard.inj (List.mem_singleton.mp received)).2])
  | .receive (.advertise _) | .receive (.unadvertise _) | .receive (.claim _) =>
    rcases List.mem_cons.mp heard with received | sent
    · exact .inl (by rw [(Fact.heard.inj received).2])
    · exact .inr (own sent)
  | .checkTimeouts _ => exact .inr (own ((List.mem_cons.mp heard).resolve_left (by simp)))
  | .findMatch .. | .stopMatch | .poll _ | .receiveMalformed | .addMatchListener _ =>
    exact .inr (own heard)

end Sources

section Network

variable {Peer : Type} [DecidableEq Peer] [IntCast Counter] {id : Peer → PublicKey}
variable {net : Peers Peer Counter}

variable {enabled : Network.Enabled Peer (MatchManager Counter) (PeerInput Counter)
  (Output Counter)} (kin : Peer → Peer → Prop) (self : ∀ peer, kin peer peer)
  (hears : ∀ history peer step msg, enabled history peer step → step.event = .receive msg →
    ∃ record ∈ history, kin record.node peer ∧ .publish msg ∈ record.outputs)

include self hears

theorem Reaches.vouched (reached : Reaches id enabled net) (peer : Peer) :
    (net.nodes peer).matchMap.All (Vouched fun msg =>
      ∃ record ∈ net.history, kin record.node peer ∧ .publish msg ∈ record.outputs) := by
  apply reached.everywhere fun history peer manager => manager.matchMap.All
    (Vouched fun msg => ∃ record ∈ history, kin record.node peer ∧ .publish msg ∈ record.outputs)
  · exact fun _ => AList.All.empty
  · exact fun history record _ _ _ kept => kept.imp fun _ _ vouched => vouched.mono
      fun _ ⟨old, member, published⟩ => ⟨old, List.mem_append_left _ member, published⟩
  · intro net peer step reached allowed kept matchId entry held
    have listed := handle_listed step.env step.pristine (net.nodes peer)
      (Reaches.inv reached peer).1 step.event matchId
    refine foldl_vouched _ (fun seen msg heard => ?_) (fun old isOld => (kept matchId old isOld).mono
      fun _ ⟨record, member, published⟩ => ⟨record, List.mem_append_left _ member, published⟩)
      entry (listed.symm.trans held)
    rcases heard_in_step heard with received | published
    · obtain ⟨record, member, isPublished⟩ := hears _ _ _ _ allowed received
      exact ⟨record, List.mem_append_left _ member, isPublished⟩
    · exact ⟨net.answer MatchManager.peer peer step, by simp, self peer, published⟩

/-- Whatever match a peer lists, its advertiser has advertised that game with that counter, and
whoever has a claim in it has claimed it with that counter, all of them kin to the peer. -/
theorem Reaches.listed_by_kin (reached : Reaches id enabled net) {peer : Peer}
    {matchId : String} {entry : MatchState Counter}
    (held : (net.nodes peer).matchMap.lookup matchId = some entry) :
    (∃ host ∈ net.history, kin host.node peer ∧ id host.node = entry.advertiser ∧
      .publish (.advertise ⟨entry.advertiser, entry.match_, entry.advertiserCounter⟩) ∈
        host.outputs) ∧
    ∀ claim ∈ entry.claimsSeen, ∃ guest ∈ net.history, kin guest.node peer ∧
      id guest.node = claim.1 ∧ .publish (.claim ⟨matchId, claim.1, claim.2⟩) ∈ guest.outputs := by
  have vouched := Reaches.vouched kin self hears reached peer matchId entry held
  constructor
  · obtain ⟨host, member, isKin, published⟩ := vouched.advert
    have stepped := Reaches.stepped reached member
    have own := stepped.effect.advertises (mem_visible_publish.mpr published)
    exact ⟨host, member, isKin, (own.trans stepped.own).symm, published⟩
  · intro claim isClaim
    obtain ⟨guest, member, isKin, published⟩ := vouched.claims claim isClaim
    have stepped := Reaches.stepped reached member
    obtain ⟨_, -, named, -⟩ :=
      stepped.effect.allows stepped.inv (mem_visible_publish.mpr published)
    exact ⟨guest, member, isKin, (named.trans stepped.own).symm, published⟩

end Network

end RoundTable.Matcher
