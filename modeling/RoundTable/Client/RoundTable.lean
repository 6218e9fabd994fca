import RoundTable.Client.Chat
import RoundTable.Client.Presence
import RoundTable.Matcher.Invariant
import RoundTable.Shared.Reactive

set_option autoImplicit false

namespace RoundTable.Client

open Script Matcher Reactive

structure RoundTableClient (Counter : Type) where
  realm : Realm
  chatManager : ChatManager
  presenceManager : PresenceManager
  matchManager : MatchManager Counter

inductive ClientEvent (Counter : Type) where
  | presence (now : Int) (user : String)
  | presenceMalformed
  | chat (throws : Nat → Bool) (msg : Parsed)
  | chatMalformed
  | sendChatMessage (throws : Nat → Bool) (time : Text) (msg : Text)
  | addChatListener (listener : Nat)
  | match_ (env : Env Counter) (event : Matcher.Event Counter)

def ClientEvent.Plain {Counter : Type} : ClientEvent Counter → Prop
  | .presence _ user => ∀ shared, Realm.pristine.inherited user ≠ some (.object shared)
  | _ => True

inductive ClientOutput (Counter : Type) where
  | presenceUncaught
  | chat (output : ChatOutput)
  | match_ (output : Matcher.Output Counter)
deriving DecidableEq

def ClientOutput.beyondPresence {Counter : Type} : ClientOutput Counter → Bool
  | .presenceUncaught => false
  | .chat _ | .match_ _ => true

variable {Counter : Type}

namespace RoundTableClient

def new [IntCast Counter] (id : PublicKey) : RoundTableClient Counter where
  realm := .pristine
  chatManager := .new id
  presenceManager := .new
  matchManager := .new id

-- The matches of `matchMap`, with what the root object adds to every loop. The script returns them in
-- the order in which they were made, which is not modelled.
def getMatches (client : RoundTableClient Counter) : List (Visited (MatchState Counter)) :=
  client.realm.forIn (client.matchManager.matchMap.entries.map (·.2))

def handlePresence (client : RoundTableClient Counter) (now : Int) (user : String) :
    RoundTableClient Counter × List (ClientOutput Counter) :=
  match client.presenceManager.handleObservation client.realm now user with
  | some (realm, presenceManager) => ({ client with realm, presenceManager }, [])
  | none => (client, [.presenceUncaught])

def handle : Machine (RoundTableClient Counter) (ClientEvent Counter) (ClientOutput Counter) :=
  fun client event =>
    match event with
    | .presence now user => client.handlePresence now user
    | .presenceMalformed => (client, [.presenceUncaught])
    | .chat throws msg =>
      let handled := client.chatManager.handleMessage client.realm throws msg
      ({ client with chatManager := handled.1 }, handled.2.map .chat)
    | .chatMalformed => (client, [.chat .uncaught])
    | .sendChatMessage throws time msg =>
      let handled := client.chatManager.sendChatMessage client.realm throws time msg
      ({ client with chatManager := handled.1 }, handled.2.map .chat)
    | .addChatListener listener =>
      ({ client with chatManager := client.chatManager.addChatListener listener }, [])
    | .match_ env event =>
      let handled := client.matchManager.handle { env with realm := client.realm } event
      ({ client with matchManager := handled.1 }, handled.2.map .match_)

/-- A presence message of `user` sets the one record of that user, and nothing that the client does
to chat and to matches afterwards shows whether the message came. -/
structure Isolated (client : RoundTableClient Counter) (now : Int) (user : String) : Prop where
  refreshed : (client.handlePresence now user).1.presenceManager.peerMap.lookup user =
    some (client.presenceManager.observed now user)
  others : ∀ other ≠ user,
    (client.handlePresence now user).1.presenceManager.peerMap.lookup other =
      client.presenceManager.peerMap.lookup other
  realm : (client.handlePresence now user).1.realm = client.realm
  chatManager : (client.handlePresence now user).1.chatManager = client.chatManager
  matchManager : (client.handlePresence now user).1.matchManager = client.matchManager
  later : ∀ events : List (ClientEvent Counter),
    let with_ := handle.run (client.handlePresence now user).1 events
    let without := handle.run client events
    with_.1.realm = without.1.realm ∧ with_.1.chatManager = without.1.chatManager ∧
      with_.1.matchManager = without.1.matchManager ∧
        with_.2.filter ClientOutput.beyondPresence = without.2.filter ClientOutput.beyondPresence

/-- Two clients that differ at most in the record of `user`, which the first has. Whether the second
has it does not matter when no shared object bears the name. -/
structure Alike (user : String) (first second : RoundTableClient Counter) : Prop where
  realm : first.realm = second.realm
  chatManager : first.chatManager = second.chatManager
  matchManager : first.matchManager = second.matchManager
  others : ∀ other ≠ user,
    first.presenceManager.peerMap.lookup other = second.presenceManager.peerMap.lookup other
  owned : user ∈ first.presenceManager.peerMap
  unshared : user ∈ second.presenceManager.peerMap ∨
    ∀ shared, first.realm.inherited user ≠ some (.object shared)

theorem handlePresence_observation (client : RoundTableClient Counter) (now : Int) (user : String) :
    client.handlePresence now user =
      match (client.presenceManager.peer client.realm user).observation now user with
      | .record peer =>
        ({ client with presenceManager := client.presenceManager.put user peer }, [])
      | .leak shared => ({ client with realm := client.realm.write shared "lastSeen" now }, [])
      | .throw => (client, [.presenceUncaught]) := by
  rw [handlePresence, PresenceManager.handleObservation_observation]
  cases (client.presenceManager.peer client.realm user).observation now user <;> rfl

theorem handle_presence (client : RoundTableClient Counter) (now : Int) (user : String) :
    client.handle (.presence now user) = client.handlePresence now user := rfl

theorem filter_handlePresence (client : RoundTableClient Counter) (now : Int) (user : String) :
    (client.handlePresence now user).2.filter ClientOutput.beyondPresence = [] := by
  rw [handlePresence_observation]
  cases (client.presenceManager.peer client.realm user).observation now user <;> rfl

namespace Alike

variable {user : String} {first second : RoundTableClient Counter}

theorem handlePresence_self (alike : Alike user first second) (now : Int) :
    Alike user (first.handlePresence now user).1 (second.handlePresence now user).1 := by
  have others (peer : PeerPresence) (other : String) (ne : other ≠ user) :
      (first.presenceManager.put user peer).peerMap.lookup other =
        second.presenceManager.peerMap.lookup other := by
    rw [PresenceManager.lookup_put, if_neg ne, alike.others other ne]
  have owned (manager : PresenceManager) (peer : PeerPresence) :
      user ∈ (manager.put user peer).peerMap := (AList.mem_insert _).mpr (.inl rfl)
  rw [handlePresence_observation, handlePresence_observation second]
  have observes := first.presenceManager.observes first.realm now user
  have observes' := second.presenceManager.observes second.realm now user
  generalize (first.presenceManager.peer first.realm user).observation now user = comes
    at observes ⊢
  generalize (second.presenceManager.peer second.realm user).observation now user = comes'
    at observes' ⊢
  cases observes with
  | leak shared absent => exact absurd alike.owned absent
  | throw value absent => exact absurd alike.owned absent
  | record =>
    cases observes' with
    | leak shared absent found =>
      rw [← alike.realm] at found
      exact absurd found (alike.unshared.resolve_left absent shared)
    | throw value absent =>
      -- The second client throws, and stays as it was.
      exact
        { realm := alike.realm
          chatManager := alike.chatManager
          matchManager := alike.matchManager
          others := others _
          owned := owned ..
          unshared := alike.unshared }
    | record =>
      exact
        { realm := alike.realm
          chatManager := alike.chatManager
          matchManager := alike.matchManager
          others := fun other ne => by
            rw [others _ other ne, PresenceManager.lookup_put, if_neg ne]
          owned := owned ..
          unshared := .inl (owned ..) }

theorem handlePresence_other (alike : Alike user first second) (now : Int) {other : String}
    (ne : other ≠ user) :
    Alike user (first.handlePresence now other).1 (second.handlePresence now other).1 := by
  have same : first.presenceManager.peer first.realm other =
      second.presenceManager.peer second.realm other := by
    rw [PresenceManager.peer, PresenceManager.peer, alike.others other ne, alike.realm]
  rw [handlePresence_observation, handlePresence_observation second, same]
  cases (second.presenceManager.peer second.realm other).observation now other with
  | throw => exact alike
  | leak shared =>
    exact
      { alike with
        realm := congrArg (·.write shared "lastSeen" now) alike.realm
        unshared := alike.unshared.imp_right fun none shared' found =>
          none shared' ((Realm.inherited_object_iff _ _ _ _).mp found) }
  | record peer =>
    have kept {manager : PresenceManager} (own : user ∈ manager.peerMap) :
        user ∈ (manager.put other peer).peerMap := (AList.mem_insert _).mpr (.inr own)
    exact
      { realm := alike.realm
        chatManager := alike.chatManager
        matchManager := alike.matchManager
        others := fun key ne' => by
          rw [PresenceManager.lookup_put, PresenceManager.lookup_put, alike.others key ne']
        owned := kept alike.owned
        unshared := alike.unshared.imp_left kept }

theorem handle (alike : Alike user first second) (event : ClientEvent Counter) :
    Alike user (first.handle event).1 (second.handle event).1 ∧
      (first.handle event).2.filter ClientOutput.beyondPresence =
        (second.handle event).2.filter ClientOutput.beyondPresence := by
  cases event with
  | presence now other =>
    refine ⟨?_, ?_⟩
    · by_cases same : other = user
      · exact same ▸ alike.handlePresence_self now
      · exact alike.handlePresence_other now same
    · rw [handle_presence, handle_presence, filter_handlePresence, filter_handlePresence]
  | presenceMalformed => exact ⟨alike, rfl⟩
  | chatMalformed => exact ⟨alike, rfl⟩
  | chat | sendChatMessage | addChatListener | match_ =>
    -- The two clients are one but for `presenceManager`, which these events neither read nor write.
    obtain ⟨realm, chat, presence, matches_⟩ := first
    obtain ⟨realm', chat', presence', matches_'⟩ := second
    obtain ⟨rfl, rfl, rfl, others, owned, unshared⟩ := alike
    exact ⟨⟨rfl, rfl, rfl, others, owned, unshared⟩, rfl⟩

end Alike

theorem alike_record (client : RoundTableClient Counter) {user : String} (peer : PeerPresence)
    (harmless : client.presenceManager.Harmless client.realm user) :
    Alike user { client with presenceManager := client.presenceManager.put user peer } client where
  realm := rfl
  chatManager := rfl
  matchManager := rfl
  others other ne := by rw [PresenceManager.lookup_put, if_neg ne]
  owned := (AList.mem_insert _).mpr (.inl rfl)
  unshared := harmless.imp_right fun falsy shared found => by
    simpa [Inherited.truthy] using falsy _ found

/-- The messages that presence keeps to itself are those of users that `peerMap` has, or whose names
read nothing from the shared objects. -/
theorem isolated_iff (client : RoundTableClient Counter) (now : Int) (user : String) :
    client.Isolated now user ↔ client.presenceManager.Harmless client.realm user := by
  have handled := client.handlePresence_observation now user
  constructor
  · intro isolated
    have refreshed := isolated.refreshed
    rw [handled] at refreshed
    have observes := client.presenceManager.observes client.realm now user
    generalize (client.presenceManager.peer client.realm user).observation now user = comes
      at observes refreshed
    -- Whatever leaves no record leaves `peerMap` without one.
    cases observes with
    | record harmless => exact harmless
    | leak shared absent | throw value absent =>
      exact absurd refreshed (by simp [AList.lookup_eq_none.mpr absent])
  · intro harmless
    rw [client.presenceManager.observation_record _ _ _ harmless] at handled
    have alike := client.alike_record (client.presenceManager.observed now user) harmless
    have later (events : List (ClientEvent Counter)) :=
      handle.run_related (Alike user) ClientOutput.beyondPresence
        (fun _ _ event alike => alike.handle event) alike events
    constructor <;> simp only [handled]
    · simp [PresenceManager.lookup_put]
    · exact alike.others
    · exact fun events =>
        ⟨(later events).1.realm, (later events).1.chatManager, (later events).1.matchManager,
          (later events).2⟩

theorem handle_pristine {client : RoundTableClient Counter} (pristine : client.realm = .pristine)
    {event : ClientEvent Counter} (plain : event.Plain) :
    (client.handle event).1.realm = .pristine := by
  cases event with
  | presence now user =>
    rw [handle_presence, handlePresence_observation]
    have observes := client.presenceManager.observes client.realm now user
    generalize (client.presenceManager.peer client.realm user).observation now user = comes
      at observes ⊢
    cases observes with
    | record | throw => exact pristine
    | leak shared absent found => exact absurd (pristine ▸ found) (plain shared)
  | presenceMalformed | chat | chatMalformed | sendChatMessage | addChatListener | match_ =>
    exact pristine

theorem proto_not_isolated :
    ¬(new (.small 1) : RoundTableClient Int).Isolated 5 "__proto__" := by
  intro isolated
  have same := (isolated.later
    [.match_ (.still 5) (.receive (.advertise ⟨.small 2, .string "chess", 0⟩)),
      .match_ (.still 5)
        (.receive (.claim ⟨getMatchID (.small 2) (.string "chess"), .small 3, 0⟩))]).2.2.1
  have claims := congrArg
    (fun manager => manager.matchMap.entries.map fun entry => entry.2.claimsSeen) same
  exact absurd claims (by decide +kernel)

end RoundTableClient

end RoundTable.Client
