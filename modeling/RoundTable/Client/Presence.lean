import RoundTable.Shared.Entries
import RoundTable.Shared.Script

set_option autoImplicit false

namespace RoundTable.Client

open Script

structure PeerPresence where
  id : String
  lastSeen : Int
deriving DecidableEq

def PeerPresence.new (id : String) : PeerPresence := ⟨id, 0⟩

def PeerPresence.setLastSeen (peer : PeerPresence) (t : Int) : PeerPresence :=
  { peer with lastSeen := t }

structure PresenceManager where
  peerMap : AList (fun _ : String => PeerPresence)
deriving DecidableEq

inductive Peer where
  | own (peer : PeerPresence)
  | inherited (value : Inherited)
  | undefined

def Peer.truthy : Peer → Bool
  | .own _ => true
  | .inherited value => value.truthy
  | .undefined => false

namespace PresenceManager

def new : PresenceManager := ⟨∅⟩

def peer (manager : PresenceManager) (realm : Realm) (user : String) : Peer :=
  match manager.peerMap.lookup user with
  | some peer => .own peer
  | none =>
    match realm.inherited user with
    | some value => .inherited value
    | none => .undefined

def put (manager : PresenceManager) (user : String) (peer : PeerPresence) : PresenceManager :=
  ⟨manager.peerMap.insert user peer⟩

-- The result is `none` when the handler throws, which it does before it has written anything.
def handleObservation (manager : PresenceManager) (realm : Realm) (now : Int) (user : String) :
    Option (Realm × PresenceManager) :=
  let manager :=
    if (manager.peer realm user).truthy then manager else manager.put user (PeerPresence.new user)
  match manager.peer realm user with
  | .own peer => some (realm, manager.put user (peer.setLastSeen now))
  | .inherited (.object shared) => some (realm.write shared "lastSeen" now, manager)
  -- Strict code may not write a property of a number, nor of `undefined`.
  | .inherited (.number _) | .undefined => none

-- The records of `peerMap`, with what the root object adds to every loop. The script returns them in
-- the order in which they were made, which is not modelled.
def getPeers (manager : PresenceManager) (realm : Realm) : List (Visited PeerPresence) :=
  realm.forIn (manager.peerMap.entries.map (·.2))

def observed (manager : PresenceManager) (now : Int) (user : String) : PeerPresence :=
  ((manager.peerMap.lookup user).getD (PeerPresence.new user)).setLastSeen now

/-- What `peerMap` reads under `user` is a record of its own, or counts as missing. -/
def Harmless (manager : PresenceManager) (realm : Realm) (user : String) : Prop :=
  user ∈ manager.peerMap ∨ ∀ value, realm.inherited user = some value → value.truthy = false

end PresenceManager

inductive Observation where
  | record (peer : PeerPresence)
  | leak (shared : SharedObject)
  | throw

def Peer.observation (now : Int) (user : String) : Peer → Observation
  | .own peer => .record (peer.setLastSeen now)
  | .inherited (.object shared) => .leak shared
  | .inherited (.number value) =>
    if value = 0 then .record ((PeerPresence.new user).setLastSeen now) else .throw
  | .undefined => .record ((PeerPresence.new user).setLastSeen now)

namespace PresenceManager

variable (manager : PresenceManager) (realm : Realm) (now : Int) (user : String)

theorem lookup_put (other : String) (peer : PeerPresence) :
    (manager.put user peer).peerMap.lookup other =
      if other = user then some peer else manager.peerMap.lookup other :=
  AList.lookup_insert_of peer manager.peerMap

@[simp] theorem peer_put (peer : PeerPresence) :
    (manager.put user peer).peer realm user = .own peer := by
  simp [PresenceManager.peer, put]

@[simp] theorem put_put (peer peer' : PeerPresence) :
    (manager.put user peer).put user peer' = manager.put user peer' := by
  simp [put, AList.insert_insert]

theorem handleObservation_observation :
    manager.handleObservation realm now user =
      match (manager.peer realm user).observation now user with
      | .record peer => some (realm, manager.put user peer)
      | .leak shared => some (realm.write shared "lastSeen" now, manager)
      | .throw => none := by
  rw [handleObservation]
  cases found : manager.peer realm user with
  | own peer => simp [Peer.truthy, Peer.observation, found]
  | undefined => simp [Peer.truthy, Peer.observation]
  | inherited value =>
    cases value with
    | object shared => simp [Peer.truthy, Inherited.truthy, Peer.observation, found]
    | number value =>
      by_cases zero : value = 0
      · simp [Peer.truthy, Inherited.truthy, Peer.observation, zero]
      · simp [Peer.truthy, Inherited.truthy, Peer.observation, found, zero]

inductive Observes : Observation → Prop where
  | record (harmless : manager.Harmless realm user) : Observes (.record (manager.observed now user))
  | leak (shared : SharedObject) (absent : user ∉ manager.peerMap)
      (found : realm.inherited user = some (.object shared)) : Observes (.leak shared)
  | throw (value : Int) (absent : user ∉ manager.peerMap)
      (found : realm.inherited user = some (.number value)) (nonzero : value ≠ 0) : Observes .throw

theorem observes :
    manager.Observes realm now user ((manager.peer realm user).observation now user) := by
  cases held : manager.peerMap.lookup user with
  | some peer =>
    have own : user ∈ manager.peerMap := AList.lookup_isSome.mp (by simp [held])
    have recorded : manager.Observes realm now user (.record (manager.observed now user)) :=
      .record (.inl own)
    simpa [PresenceManager.peer, Peer.observation, observed, held] using recorded
  | none =>
    have absent : user ∉ manager.peerMap := AList.lookup_eq_none.mp held
    -- A missing or falsy value makes room for a new record.
    have made (missing : ∀ value, realm.inherited user = some value → value.truthy = false) :
        manager.Observes realm now user
          (.record ((PeerPresence.new user).setLastSeen now)) := by
      have recorded : manager.Observes realm now user (.record (manager.observed now user)) :=
        .record (.inr missing)
      rwa [observed, held, Option.getD_none] at recorded
    cases found : realm.inherited user with
    | none =>
      simpa [PresenceManager.peer, Peer.observation, held, found] using made (by simp [found])
    | some value =>
      cases value with
      | object shared =>
        simpa [PresenceManager.peer, Peer.observation, held, found] using
          Observes.leak shared absent found
      | number value =>
        by_cases zero : value = 0
        · simpa [PresenceManager.peer, Peer.observation, held, found, zero] using
            made (by simp [found, zero, Inherited.truthy])
        · simpa [PresenceManager.peer, Peer.observation, held, found, zero] using
            Observes.throw value absent found zero

theorem observation_record (harmless : manager.Harmless realm user) :
    (manager.peer realm user).observation now user = .record (manager.observed now user) := by
  have observes := manager.observes realm now user
  generalize (manager.peer realm user).observation now user = comes at observes
  cases observes with
  | record => rfl
  | leak shared absent found =>
    have falsy := harmless.resolve_left absent _ found
    simp [Inherited.truthy] at falsy
  | throw value absent found nonzero =>
    have falsy := harmless.resolve_left absent _ found
    simp [Inherited.truthy, nonzero] at falsy

end PresenceManager

end RoundTable.Client
