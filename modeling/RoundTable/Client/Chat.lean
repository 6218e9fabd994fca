import RoundTable.Shared.PublicKey
import RoundTable.Shared.Script

set_option autoImplicit false

namespace RoundTable.Client

open Script

-- A script string, as the code units that `slice` counts.
abbrev Text := List UInt16

def Text.ofChar (c : Char) : Text :=
  if c.toNat < 0x10000 then [c.toNat.toUInt16]
  else
    let rest := c.toNat - 0x10000
    [(0xD800 + rest / 0x400).toUInt16, (0xDC00 + rest % 0x400).toUInt16]

def Text.ofString (s : String) : Text := s.toList.flatMap Text.ofChar

def sanitise (text : Text) : Text := text.take 160

structure ChatMessage where
  user : Text
  msg : Text
  time : Text
deriving DecidableEq

-- What `JSON.parse` makes of a delivered message: a chat message, or another value with its
-- text.
inductive Parsed where
  | message (msg : ChatMessage)
  | other (json : String)
deriving DecidableEq

structure ChatManager where
  chatLog : List Parsed
  listeners : List Nat
  id : PublicKey
deriving DecidableEq

inductive ChatOutput where
  | publish (msg : ChatMessage)
  | listener (listener : Nat) (msg : Parsed)
  | uncaught
deriving DecidableEq

namespace ChatManager

def new (id : PublicKey) : ChatManager := ⟨[], [], id⟩

def entries : Nat := 20

-- The loop over the listeners. The `n`-th call throws as `throws n` says, and a number cannot be
-- called at all.
def callListeners (throws : Nat → Bool) (pMsg : Parsed) : Nat → List (Visited Nat) → List ChatOutput
  | _, [] => []
  | n, .own listener :: rest =>
    .listener listener pMsg ::
      if throws n then [.uncaught] else callListeners throws pMsg (n + 1) rest
  | _, .inherited _ :: _ => [.uncaught]

def handleMessage (manager : ChatManager) (realm : Realm) (throws : Nat → Bool) (pMsg : Parsed) :
    ChatManager × List ChatOutput :=
  let chatLog := manager.chatLog ++ [pMsg]
  let chatLog := if chatLog.length > entries then chatLog.drop 1 else chatLog
  ({ manager with chatLog }, callListeners throws pMsg 0 (realm.forIn manager.listeners))

def sendChatMessage (manager : ChatManager) (realm : Realm) (throws : Nat → Bool) (time : Text)
    (msg : Text) : ChatManager × List ChatOutput :=
  let chatMsg : ChatMessage := ⟨Text.ofString manager.id.toString, sanitise msg, time⟩
  let handled := manager.handleMessage realm throws (.message chatMsg)
  (handled.1, .publish chatMsg :: handled.2)

def addChatListener (manager : ChatManager) (listener : Nat) : ChatManager :=
  { manager with listeners := manager.listeners ++ [listener] }

end ChatManager

end RoundTable.Client
