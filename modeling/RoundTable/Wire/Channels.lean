import RoundTable.Wire.Messages

set_option autoImplicit false

namespace RoundTable.Wire

open Matcher

inductive Channel where
  | chat
  | presence
  | match_ (channel : MatchChannel)
deriving DecidableEq

def Channel.name : Channel → String
  | .chat => "-chat"
  | .presence => "-presence"
  | .match_ .advertise => "-match-advertise"
  | .match_ .unadvertise => "-match-unadvertise"
  | .match_ .claim => "-match-claim"
  | .match_ .ack => "-match-ack"

def channels : List Channel :=
  [.chat, .presence, .match_ .advertise, .match_ .unadvertise, .match_ .claim, .match_ .ack]

theorem mem_channels (channel : Channel) : channel ∈ channels := by
  cases channel with
  | chat | presence => simp [channels]
  | match_ channel => cases channel <;> simp [channels]

def topic (netName : String) (channel : Channel) : String := netName ++ channel.name

theorem name_suffix {channel channel' : Channel}
    (suffix : channel.name.toList <:+ channel'.name.toList) : channel = channel' := by
  have all : ∀ channel ∈ channels, ∀ channel' ∈ channels,
      channel.name.toList <:+ channel'.name.toList → channel = channel' := by decide
  exact all _ (mem_channels channel) _ (mem_channels channel') suffix

theorem topic_inj {netName netName' : String} {channel channel' : Channel} :
    topic netName channel = topic netName' channel' ↔ netName = netName' ∧ channel = channel' := by
  constructor
  · intro same
    have texts : netName.toList ++ channel.name.toList = netName'.toList ++ channel'.name.toList := by
      simpa [topic] using congrArg String.toList same
    have ends : channel.name.toList <:+ netName'.toList ++ channel'.name.toList :=
      texts ▸ List.suffix_append ..
    obtain rfl : channel = channel' := by
      rcases List.suffix_or_suffix_of_suffix ends (List.suffix_append ..) with shorter | longer
      · exact name_suffix shorter
      · exact (name_suffix longer).symm
    exact ⟨String.toList_inj.mp (List.append_cancel_right texts), rfl⟩
  · rintro ⟨rfl, rfl⟩
    rfl

-- The subscriptions of a client that a topic reaches.
def subscribed (netName : String) (topic : String) : List Channel :=
  channels.filter fun channel => Wire.topic netName channel = topic

theorem subscribed_topic (netName : String) (channel : Channel) :
    subscribed netName (topic netName channel) = [channel] := by
  simp only [subscribed, topic_inj, true_and]
  cases channel with
  | chat | presence => rfl
  | match_ channel => cases channel <;> rfl

end RoundTable.Wire
