import Mathlib.Algebra.Order.BigOperators.Group.List
import RoundTable.Client.Lists
import RoundTable.Client.P2P
import RoundTable.Wire.Bus

set_option autoImplicit false

namespace RoundTable.Server

open Client Contract Wire Reactive

structure Config where
  announce : List String
  listen : List String
  bootstraps : List (List Char)
  peerId : Option PublicKey
deriving DecidableEq

def buildConfig (hostname : String) (bootstraps : List (List Char)) (port : Nat)
    (announceHttps : Bool) : Config :=
  let listenAddress := "/dns4/" ++ hostname ++ "/tcp/" ++ toString port ++ "/ws"
  let announceAddress :=
    if announceHttps then "/dns4/" ++ hostname ++ "/tcp/443/wss" else listenAddress
  { announce := [announceAddress]
    listen := [listenAddress]
    bootstraps
    peerId := none }

def getDefaultConfig (bootstraps : List (List Char)) : Config := ⟨[], [], bootstraps, none⟩

structure RoundTableServer where
  id : PublicKey
  tableOwner : PublicKey
  hostname : String
  port : Nat
  announceWSS : Bool

-- A running server, with the topics it has subscribed to.
structure Relay where
  config : Config
  subscriptions : List (List Char)
deriving DecidableEq

def RoundTableServer.config (server : RoundTableServer) (bootstraps : List (List Char)) : Config :=
  { buildConfig server.hostname bootstraps server.port server.announceWSS with
    peerId := some server.id }

-- Without the data of a table `init` throws, also when the account is there and cannot be read. So
-- it does when libp2p, of which `starts` tells, refuses to create or to start the node.
def RoundTableServer.init (server : RoundTableServer) (starts : Config → Bool) (runtime : Runtime)
    (ledger : Ledger) : Option Relay :=
  match getTableData runtime ledger server.tableOwner with
  | .ok (some chainData) =>
    let config := server.config chainData.servers
    if starts config then some { config, subscriptions := chainData.channels } else none
  | .ok none | .error _ => none

/-- A call of `initRoundTable` that has asked `getP2PNode` for a node with this configuration, and
goes on with the node that it is given. -/
structure Initialising (Counter : Type) where
  config : Config
  resume : Libp2p Config → Libp2p Config × BusClient Counter

def initRoundTable {Counter : Type} [IntCast Counter] (runtime : Runtime) (ledger : Ledger)
    (id channelId tableOwner : PublicKey) (netName : String) : Option (Initialising Counter) :=
  match getTableData runtime ledger tableOwner with
  | .ok (some chainData) =>
    some
      { config := { getDefaultConfig chainData.servers with peerId := some channelId }
        resume := fun libp2p => (libp2p, .new netName id) }
  | .ok none | .error _ => none

section Network

variable {netName : String}

def networkNames (netName : String) : Set (List Char) :=
  {name | ∃ channel, name = (topic netName channel).toList}

theorem topic_toList (netName : String) (channel : Channel) :
    (topic netName channel).toList = netName.toList ++ channel.name.toList := by
  simp [topic]

theorem channel_of_part {channel channel' : Channel}
    (part : (topic netName channel).toList <:+: (topic netName channel').toList) :
    channel = channel' := by
  have names : ∀ channel ∈ channels, ∀ channel' ∈ channels,
      channel.name.toList <:+: channel'.name.toList → channel = channel' := by decide
  obtain ⟨before, after, same⟩ := part
  rw [topic_toList, topic_toList] at same
  apply names _ (mem_channels channel) _ (mem_channels channel')
  have long : netName.toList.length ≤ (before ++ netName.toList).length := by simp
  have rest := congrArg (List.drop netName.toList.length) same
  rw [List.drop_left, ← List.append_assoc, List.append_assoc,
    List.drop_append_of_le_length long] at rest
  exact ⟨_, after, by rw [List.append_assoc, rest]⟩

theorem name_plain (channel : Channel) :
    (Utf8.encode channel.name.toList).length ≤ 18 ∧ ';' ∉ channel.name.toList ∧
      Utf8.nul ∉ channel.name.toList := by
  have all : ∀ channel ∈ channels, (Utf8.encode channel.name.toList).length ≤ 18 ∧
      ';' ∉ channel.name.toList ∧ Utf8.nul ∉ channel.name.toList := by decide
  exact all channel (mem_channels channel)

/-- A name of a network that fits six times into a region, with the names of the channels. -/
structure NetName (netName : String) : Prop where
  short : (Utf8.encode netName.toList).length ≤ 72
  noDelimiter : ';' ∉ netName.toList
  noNul : Utf8.nul ∉ netName.toList

theorem NetName.names (plain : NetName netName) : Names (networkNames netName) where
  nonempty := by
    rintro _ ⟨channel, rfl⟩ empty
    rw [topic_toList, List.append_eq_nil_iff] at empty
    cases channel with
    | chat | presence => cases empty.2
    | match_ channel => cases channel <;> cases empty.2
  short := by
    rintro _ ⟨channel, rfl⟩
    have name := (name_plain channel).1
    have net := plain.short
    rw [topic_toList, Utf8.encode_append, List.length_append]
    omega
  noDelimiter := by
    rintro _ ⟨channel, rfl⟩
    rw [topic_toList, List.mem_append]
    exact not_or.mpr ⟨plain.noDelimiter, (name_plain channel).2.1⟩
  noNul := by
    rintro _ ⟨channel, rfl⟩
    rw [topic_toList, List.mem_append]
    exact not_or.mpr ⟨plain.noNul, (name_plain channel).2.2⟩
  apart := by
    rintro _ ⟨channel, rfl⟩ _ ⟨channel', rfl⟩ part
    rw [channel_of_part part]

variable {names : Set (List Char)} (within : networkNames netName ⊆ names)

def opening : Channel ⊕ names → Edit names
  | .inl channel => .AddChannel ⟨(topic netName channel).toList, within ⟨channel, rfl⟩⟩
  | .inr address => .AddBootstrap address

def topicsOf (netName : String) (steps : List (Channel ⊕ names)) : List (List Char) :=
  (steps.filterMap Sum.getLeft?).map fun channel => (topic netName channel).toList

def addressesOf (steps : List (Channel ⊕ names)) : List (List Char) :=
  (steps.filterMap Sum.getRight?).map Subtype.val

theorem topicsOf_nodup {steps : List (Channel ⊕ names)}
    (nodup : (steps.filterMap Sum.getLeft?).Nodup) : (topicsOf netName steps).Nodup :=
  nodup.map fun _ _ same => (topic_inj.mp (String.toList_inj.mp same)).2

theorem after_opening (steps : List (Channel ⊕ names)) (topics : (topicsOf netName steps).Nodup)
    (addresses : (addressesOf steps).Nodup) :
    let lists := Lists.empty.after (steps.map (opening within))
    lists.servers.toList = addressesOf steps ∧ lists.channels.toList = topicsOf netName steps := by
  induction steps using List.reverseRecOn with
  | nil => exact ⟨rfl, rfl⟩
  | append_singleton steps step ih =>
    cases step with
    | inl channel =>
      simp only [topicsOf, addressesOf, List.filterMap_append, List.filterMap_cons,
        List.filterMap_nil, Sum.getLeft?, Sum.getRight?, List.map_append, List.map_singleton,
        List.append_nil] at topics addresses ih ⊢
      obtain ⟨earlier, -, apart⟩ := List.nodup_append.mp topics
      obtain ⟨servers, channels⟩ := ih earlier addresses
      have absent : (topic netName channel).toList ∉
          (Lists.empty.after (steps.map (opening within))).channels.toList :=
        fun member => apart _ (channels ▸ member) _ (List.mem_singleton_self _) rfl
      rw [Lists.after_snoc]
      simp only [opening, Lists.apply, NameList.add, dif_neg absent, Except.map, Except.toOption,
        Option.getD_some]
      exact ⟨servers, by rw [channels]⟩
    | inr address =>
      simp only [topicsOf, addressesOf, List.filterMap_append, List.filterMap_cons,
        List.filterMap_nil, Sum.getLeft?, Sum.getRight?, List.map_append, List.map_singleton,
        List.append_nil] at topics addresses ih ⊢
      obtain ⟨earlier, -, apart⟩ := List.nodup_append.mp addresses
      obtain ⟨servers, channels⟩ := ih topics earlier
      have absent : address.1 ∉ (Lists.empty.after (steps.map (opening within))).servers.toList :=
        fun member => apart _ (servers ▸ member) _ (List.mem_singleton_self _) rfl
      rw [Lists.after_snoc]
      simp only [opening, Lists.apply, NameList.add, dif_neg absent, Except.map, Except.toOption,
        Option.getD_some]
      exact ⟨by rw [servers], channels⟩

def regionSize (names : List (List Char)) : Nat :=
  (names.map fun name => 1 + (Utf8.encode name).length).sum

theorem regionSize_le {names names' : List (List Char)} (sub : names.Sublist names') :
    regionSize names ≤ regionSize names' :=
  (sub.map _).sum_le_sum fun _ _ => Nat.zero_le _

theorem topics_fit (plain : NetName netName) {order : List Channel} (perm : order.Perm channels) :
    regionSize (order.map fun channel => (topic netName channel).toList) ≤ 512 := by
  have each (channel : Channel) : 1 + (Utf8.encode (topic netName channel).toList).length =
      1 + ((Utf8.encode netName.toList).length + (Utf8.encode channel.name.toList).length) := by
    rw [topic_toList, Utf8.encode_append, List.length_append]
  have names : (channels.map fun channel => (Utf8.encode channel.name.toList).length).sum = 70 := by
    decide
  have net := plain.short
  rw [regionSize, ((perm.map _).map _).sum_eq]
  simp only [channels, List.map_cons, List.map_nil, List.sum_cons, List.sum_nil, each] at names ⊢
  omega

theorem opening_fits (plain : NetName netName) {steps : List (Channel ⊕ names)}
    (perm : (steps.filterMap Sum.getLeft?).Perm channels) (addresses : (addressesOf steps).Nodup)
    (small : regionSize (addressesOf steps) ≤ 512) {before : List (Edit names)}
    (front : before <+: steps.map (opening within)) : (Lists.empty.after before).Fits := by
  rw [List.prefix_iff_eq_take.mp front, ← List.map_take]
  have some : (steps.take before.length).Sublist steps := List.take_sublist ..
  have someTopics : (topicsOf netName (steps.take before.length)).Sublist (topicsOf netName steps) :=
    (some.filterMap _).map _
  have someAddresses : (addressesOf (steps.take before.length)).Sublist (addressesOf steps) :=
    (some.filterMap _).map _
  have topics : (topicsOf netName steps).Nodup :=
    topicsOf_nodup (perm.nodup_iff.mpr (by decide))
  obtain ⟨servers, channels⟩ := after_opening within _ (topics.sublist someTopics)
    (addresses.sublist someAddresses)
  rw [Lists.Fits, NameList.size, NameList.size, servers, channels]
  exact ⟨(regionSize_le someAddresses).trans small,
    (regionSize_le someTopics).trans (topics_fit plain perm)⟩

end Network

section Serving

variable {runtime : Runtime} {owner : PublicKey} {netName : String} {Counter : Type}

theorem config_of_returned {Config : Type} {events : List (P2PEvent Config)} {call : Nat}
    {node : Libp2p Config} (returned : Returned (P2P.getP2PNode.trace P2P.new events) call node) :
    .getP2PNode node.config ∈ events := by
  obtain ⟨-, made, -⟩ :=
    (P2P.run_sound events).made call node ((P2P.returned_iff events call node).mp returned)
  obtain ⟨event, member, config⟩ := List.mem_filterMap.mp (List.mem_of_getElem? made)
  cases event with
  | getP2PNode asked =>
    obtain rfl := Option.some.inj config
    exact member
  | _ => cases config

section Opened

variable (documented : runtime.Documented) {closed : Bool}
  (init : OwnerCall runtime PROGRAM_ID owner) (isInit : init.instruction = .InitTable closed)
  {initial created : Ledger} (done : init.outcome initial = .ok ((), created))
  (plain : NetName netName) {names : Set (List Char)} (valid : Names names)
  (within : networkNames netName ⊆ names) {steps : List (Channel ⊕ names)}
  (perm : (steps.filterMap Sum.getLeft?).Perm channels)
  (addresses : (addressesOf steps).Nodup) (small : regionSize (addressesOf steps) ≤ 512)
  (calls : List (OwnerCall runtime PROGRAM_ID owner))
  (asks : calls.map OwnerCall.instruction =
    steps.map fun step => (opening within step).instruction valid)

include documented isInit done plain perm addresses small asks

theorem getTableData_opened :
    getTableData runtime (OwnerCall.submitAll calls created.purge) owner =
      .ok (some ⟨addressesOf steps, topicsOf netName steps, Borsh.ofBool closed⟩) := by
  obtain ⟨new, funded⟩ := OwnerCall.outcome_initTable documented isInit done
  have edits : ∀ call ∈ calls, call.instruction.edited.isSome := by
    intro call member
    have asked : call.instruction ∈ calls.map OwnerCall.instruction := List.mem_map_of_mem member
    rw [asks] at asked
    obtain ⟨step, -, same⟩ := List.mem_map.mp asked
    rw [← same]
    exact (opening within step).instruction_edited valid
  obtain ⟨data, isFunded⟩ := OwnerCall.submitAll_edits edits new funded
  rw [asks, ← Function.comp_def, ← List.map_map] at data
  have represents := (represents_new closed).after valid fun before front =>
    opening_fits within plain perm addresses small front
  have topics : (topicsOf netName steps).Nodup := topicsOf_nodup (perm.nodup_iff.mpr (by decide))
  obtain ⟨servers, channels⟩ := after_opening within steps topics addresses
  rw [getTableData_of_represents valid represents data isFunded, servers, channels]

/-- When the owner of a new table adds the topics of a network and the addresses of servers, in any
order, every server of the table that starts subscribes to just these topics, so to each that a
client of the network publishes under. It connects to just these addresses, and so do the nodes of a
page on which all clients are for this table, whichever of them a client is given. -/
theorem network_served [IntCast Counter] (server : RoundTableServer)
    (owned : server.tableOwner = owner) (codec : Codec Counter) :
    let ledger := OwnerCall.submitAll calls created.purge
    let config := server.config (addressesOf steps)
    (∀ starts, server.init starts runtime ledger =
      if starts config then some ⟨config, topicsOf netName steps⟩ else none) ∧
    (∀ (client : BusClient Counter) (input : BusInput Counter) (reached : String)
      (data : List UInt8), client.netName = netName →
        .publish reached data ∈ (client.react codec input).2 →
          reached.toList ∈ topicsOf netName steps) ∧
    (∀ id channelId, ∃ waiting : Initialising Counter,
      initRoundTable runtime ledger id channelId owner netName = some waiting ∧
        waiting.config.bootstraps = config.bootstraps ∧
          ∀ node, waiting.resume node = (node, .new netName id)) ∧
    ∀ events : List (P2PEvent Config),
      (∀ asked, .getP2PNode asked ∈ events → ∃ (id channelId : PublicKey) (netName : String)
        (waiting : Initialising Counter),
          initRoundTable runtime ledger id channelId owner netName = some waiting ∧
            asked = waiting.config) →
        ∀ call node, Returned (P2P.getP2PNode.trace P2P.new events) call node →
          node.config.bootstraps = config.bootstraps := by
  intro ledger config
  have read : getTableData runtime ledger owner =
      .ok (some ⟨addressesOf steps, topicsOf netName steps, Borsh.ofBool closed⟩) :=
    getTableData_opened documented init isInit done plain valid within perm addresses small calls asks
  have waits (id channelId : PublicKey) (name : String) :
      (initRoundTable runtime ledger id channelId owner name : Option (Initialising Counter)) =
        some ⟨{ getDefaultConfig (addressesOf steps) with peerId := some channelId },
          fun libp2p => (libp2p, .new name id)⟩ := by
    rw [initRoundTable, read]
  refine ⟨fun starts => by rw [RoundTableServer.init, owned, read], ?_, ?_, ?_⟩
  · rintro client input reached data rfl published
    obtain ⟨channel, rfl⟩ := BusClient.publishes_topic codec published
    exact List.mem_map_of_mem (perm.mem_iff.mpr (mem_channels channel))
  · exact fun id channelId => ⟨_, waits id channelId netName, rfl, fun node => rfl⟩
  · intro events ours call node returned
    obtain ⟨id, channelId, name, waiting, isWaiting, same⟩ := ours _ (config_of_returned returned)
    obtain rfl := Option.some.inj ((waits id channelId name).symm.trans isWaiting)
    rw [same]
    rfl

end Opened

theorem Sample.tableName : NetName "table" := ⟨by decide, by decide, by decide⟩

def Sample.address : List Char := "/dns4/relay/tcp/443/wss".toList

def Sample.names : Set (List Char) := insert Sample.address (networkNames "table")

theorem Sample.names_valid : Names Sample.names := by
  have apart : ∀ channel ∈ channels, ¬Sample.address <:+: (topic "table" channel).toList ∧
      ¬(topic "table" channel).toList <:+: Sample.address := by
    decide
  refine Sample.tableName.names.insert (by decide) (by decide) (by decide) (by decide) ?_
  rintro _ ⟨channel, rfl⟩
  exact apart channel (mem_channels channel)

theorem Sample.names_within : networkNames "table" ⊆ Sample.names := Set.subset_insert ..

def Sample.steps : List (Channel ⊕ Sample.names) :=
  .inr ⟨Sample.address, .inl rfl⟩ :: channels.map .inl

def Sample.calls : List (OwnerCall Contract.Sample.runtime PROGRAM_ID Contract.Sample.owner) :=
  Sample.steps.map fun step =>
    Sample.ownerCall ((opening Sample.names_within step).instruction Sample.names_valid)

theorem network_served_table : ∃ created,
    (Sample.ownerCall (.InitTable false)).outcome Contract.Sample.funded = .ok ((), created) ∧
      let server : RoundTableServer :=
        ⟨Contract.Sample.user, Contract.Sample.owner, "relay", 8080, true⟩
      server.init (fun _ => true) Contract.Sample.runtime
          (OwnerCall.submitAll Sample.calls created.purge) =
        some ⟨server.config [Sample.address],
          channels.map fun channel => (topic "table" channel).toList⟩ := by
  obtain ⟨created, done⟩ := Sample.created_open
  have asks : Sample.calls.map OwnerCall.instruction = Sample.steps.map fun step =>
      (opening Sample.names_within step).instruction Sample.names_valid := by
    rw [Sample.calls, List.map_map]
    rfl
  have perm : (Sample.steps.filterMap Sum.getLeft?).Perm channels := .refl channels
  have served := network_served Contract.Sample.runtime_documented
    (Sample.ownerCall (.InitTable false)) rfl done Sample.tableName Sample.names_valid
    Sample.names_within perm (by decide) (by decide) Sample.calls asks
    ⟨Contract.Sample.user, Contract.Sample.owner, "relay", 8080, true⟩ rfl smallCodec
  exact ⟨created, done, served.1 fun _ => true⟩

end Serving

end RoundTable.Server
