import Mathlib.Data.List.DropRight
import RoundTable.Client.Json
import RoundTable.Shared.Reactive
import RoundTable.Shared.Utf8

set_option autoImplicit false

namespace RoundTable.Client

open Script Reactive

-- A record whose `user`, `msg` and `time` are strings. Its other fields are never read.
def Json.chatMessage : Json → Option ChatMessage
  | .object fields =>
    match get "user" fields, get "msg" fields, get "time" fields with
    | some (.string user), some (.string msg), some (.string time) => some ⟨user, msg, time⟩
    | _, _, _ => none
  | _ => none

def Json.parsed (json : Json) (text : List Char) : Parsed :=
  match json.chatMessage with
  | some msg => .message msg
  | none => .other (String.ofList text)

def Parsed.wellFormed : Parsed → Bool
  | .message msg => msg.msg.length ≤ 160
  | .other _ => false

def parseChatMessage (data : List UInt8) : Option Parsed :=
  let msgData := Utf8.textDecode data
  (Json.parse msgData).map fun json => json.parsed msgData

namespace ChatManager

def handleChatMessage (manager : ChatManager) (realm : Realm) (throws : Nat → Bool)
    (data : List UInt8) : ChatManager × List ChatOutput :=
  match parseChatMessage data with
  | none => (manager, [.uncaught])
  | some pMsg => manager.handleMessage realm throws pMsg

end ChatManager

-- The listeners throw as `throws` says of their calls, in the order of the calls.
inductive ChatEvent where
  | send (throws : Nat → Bool) (time msg : Text)
  | deliver (throws : Nat → Bool) (data : List UInt8)
  | listen (listener : Nat)

def ChatEvent.throws : ChatEvent → Nat → Bool
  | .send throws _ _ | .deliver throws _ => throws
  | .listen _ => fun _ => false

def ChatOutput.call : ChatOutput → Option (Nat × Parsed)
  | .listener called msg => some (called, msg)
  | _ => none

namespace ChatManager

def react : Machine ChatManager ChatEvent ChatOutput := fun manager event =>
  match event with
  | .send throws time msg => manager.sendChatMessage .pristine throws time msg
  | .deliver throws data => manager.handleChatMessage .pristine throws data
  | .listen listener => (manager.addChatListener listener, [])

def handles (manager : ChatManager) : ChatEvent → Option Parsed
  | .send _ time msg =>
    some (.message ⟨Text.ofString manager.id.toString, sanitise msg, time⟩)
  | .deliver _ data => parseChatMessage data
  | .listen _ => none

def accepts (manager : ChatManager) (event : ChatEvent) : List Parsed :=
  ((manager.handles event).filter Parsed.wellFormed).toList

end ChatManager

abbrev ChatMoment := Record Unit ChatManager ChatEvent ChatOutput

def accepted (moments : List ChatMoment) : List Parsed :=
  moments.flatMap fun moment => moment.before.accepts moment.input

/-- The log is a window over the accepted messages, and every listener has heard each of them. -/
structure KeepsWindow (moments : List ChatMoment) : Prop where
  window : ∀ earlier moment later, moments = earlier ++ moment :: later →
    moment.after.chatLog = (accepted (earlier ++ [moment])).rtake ChatManager.entries
  wellFormed : ∀ moment ∈ moments, ∀ entry ∈ moment.after.chatLog, entry.wellFormed = true
  rejects : ∀ moment ∈ moments, moment.before.accepts moment.input = [] →
    moment.after.chatLog = moment.before.chatLog
  calls : ∀ moment ∈ moments, moment.outputs.filterMap ChatOutput.call =
    (moment.before.accepts moment.input).flatMap fun msg =>
      moment.before.listeners.map fun listener => (listener, msg)

structure Calm (moment : ChatMoment) : Prop where
  delivered : ∀ throws data, moment.input = .deliver throws data →
    ∀ msg, parseChatMessage data = some msg → msg.wellFormed = true
  returns : ∀ msg, moment.before.handles moment.input = some msg →
    ∀ i, i + 1 < moment.before.listeners.length → moment.input.throws i = false

section Step

theorem callListeners_calls (throws : Nat → Bool) (msg : Parsed) (n : Nat) (listeners : List Nat) :
    (ChatManager.callListeners throws msg n (listeners.map .own)).filterMap ChatOutput.call =
        listeners.map (fun listener => (listener, msg)) ↔
      ∀ i, i + 1 < listeners.length → throws (n + i) = false := by
  induction listeners generalizing n with
  | nil => simp [ChatManager.callListeners]
  | cons listener rest ih =>
    cases rest with
    | nil =>
      cases throws : throws n <;> simp [ChatManager.callListeners, ChatOutput.call, throws]
    | cons next rest =>
      have front (outputs : List ChatOutput) :
          (ChatOutput.listener listener msg :: outputs).filterMap ChatOutput.call =
            (listener, msg) :: outputs.filterMap ChatOutput.call := rfl
      rw [List.map_cons, ChatManager.callListeners, front]
      change _ :: _ = _ :: (next :: rest).map (fun listener => (listener, msg)) ↔ _
      rw [List.cons_inj_right]
      cases stops : throws n with
      | true =>
        refine ⟨fun same => ?_, fun returns => ?_⟩
        · cases same
        · rw [← Nat.add_zero n, returns 0 (by simp)] at stops
          cases stops
      | false =>
        refine (ih (n + 1)).trans ⟨fun returns i inside => ?_, fun returns i inside => ?_⟩
        · cases i with
          | zero => exact stops
          | succ i =>
            rw [← Nat.add_assoc, Nat.add_right_comm]
            exact returns i (Nat.lt_of_succ_lt_succ inside)
        · rw [Nat.add_assoc, Nat.add_comm 1 i]
          exact returns (i + 1) (Nat.succ_lt_succ inside)

theorem rtake_snoc {α : Type} (n : Nat) (xs : List α) (x : α) :
    (let pushed := xs.rtake n ++ [x]; if pushed.length > n then pushed.drop 1 else pushed) =
      (xs ++ [x]).rtake n := by
  simp only [List.rtake, List.length_append, List.length_drop, List.length_singleton]
  by_cases full : n ≤ xs.length
  · have longer : xs.length - (xs.length - n) + 1 > n := by omega
    have cut : xs.length + 1 - n = xs.length - n + 1 := by omega
    have inside : xs.length - n ≤ xs.length := Nat.sub_le ..
    rw [if_pos longer, cut, ← List.drop_drop, List.drop_append_of_le_length inside]
  · have shorter : ¬xs.length - (xs.length - n) + 1 > n := by omega
    have whole : xs.length + 1 - n = 0 := by omega
    have whole' : xs.length - n = 0 := by omega
    rw [if_neg shorter, whole, whole']
    rfl

variable (manager : ChatManager) (event : ChatEvent)

theorem react_handles :
    match manager.handles event with
    | none => (manager.react event).1.chatLog = manager.chatLog ∧
        (manager.react event).2.filterMap ChatOutput.call = []
    | some msg =>
      (manager.react event).1.chatLog =
          (manager.handleMessage .pristine event.throws msg).1.chatLog ∧
        (manager.react event).2.filterMap ChatOutput.call =
          (ChatManager.callListeners event.throws msg 0
            (manager.listeners.map .own)).filterMap ChatOutput.call := by
  cases event with
  | send throws time msg =>
    refine ⟨rfl, ?_⟩
    simp only [ChatManager.react, ChatManager.sendChatMessage, ChatManager.handleMessage,
      Realm.forIn_pristine]
    rfl
  | listen listener => exact ⟨rfl, rfl⟩
  | deliver throws data =>
    simp only [ChatManager.handles, ChatManager.react, ChatManager.handleChatMessage]
    cases parsed : parseChatMessage data with
    | none => exact ⟨rfl, rfl⟩
    | some msg => simp [ChatManager.handleMessage, ChatEvent.throws]

theorem handled_logged {msg : Parsed} (handled : manager.handles event = some msg) :
    msg ∈ (manager.react event).1.chatLog := by
  have logged := react_handles manager event
  simp only [handled] at logged
  rw [logged.1]
  simp only [ChatManager.handleMessage]
  split
  next full =>
    have some : 1 ≤ manager.chatLog.length := by
      simp only [List.length_append, List.length_singleton, ChatManager.entries] at full
      omega
    rw [List.drop_append_of_le_length some]
    exact List.mem_append_right _ (List.mem_singleton_self msg)
  next => exact List.mem_append_right _ (List.mem_singleton_self msg)

end Step

theorem accepted_snoc (moments : List ChatMoment) (moment : ChatMoment) :
    accepted (moments ++ [moment]) =
      accepted moments ++ moment.before.accepts moment.input := by
  simp [accepted]

def ChatManager.Sound (manager : ChatManager) (event : ChatEvent) : Prop :=
  ∀ msg, manager.handles event = some msg → msg.wellFormed = true

namespace ChatManager.Sound

variable {manager : ChatManager} {event : ChatEvent}

theorem of_delivered (delivered : ∀ throws data, event = .deliver throws data →
    ∀ msg, parseChatMessage data = some msg → msg.wellFormed = true) : manager.Sound event := by
  intro msg handled
  cases event with
  | listen listener => cases handled
  | deliver throws data => exact delivered throws data rfl msg handled
  | send throws time text =>
    obtain rfl := Option.some.inj handled
    exact decide_eq_true (List.length_take_le 160 text)

theorem accepts (sound : manager.Sound event) :
    manager.accepts event = (manager.handles event).toList := by
  unfold ChatManager.accepts
  cases handled : manager.handles event with
  | none => rfl
  | some msg => simp [Option.filter, sound msg handled]

theorem window (sound : manager.Sound event) {earlier : List Parsed}
    (window : manager.chatLog = earlier.rtake entries) :
    (manager.react event).1.chatLog = (earlier ++ manager.accepts event).rtake entries := by
  have logged := react_handles manager event
  rw [sound.accepts]
  cases handled : manager.handles event with
  | none =>
    simp only [handled] at logged
    rw [logged.1, window, Option.toList_none, List.append_nil]
  | some msg =>
    simp only [handled] at logged
    rw [logged.1, Option.toList_some, ← rtake_snoc, ← window]
    rfl

theorem rejects (sound : manager.Sound event) (none : manager.accepts event = []) :
    (manager.react event).1.chatLog = manager.chatLog := by
  have logged := react_handles manager event
  rw [sound.accepts] at none
  cases handled : manager.handles event with
  | some msg => simp [handled] at none
  | none =>
    simp only [handled] at logged
    exact logged.1

theorem calls_iff (sound : manager.Sound event) :
    (manager.react event).2.filterMap ChatOutput.call =
        ((manager.accepts event).flatMap fun msg =>
          manager.listeners.map fun listener => (listener, msg)) ↔
      ∀ msg, manager.handles event = some msg →
        ∀ i, i + 1 < manager.listeners.length → event.throws i = false := by
  have called := react_handles manager event
  rw [sound.accepts]
  cases handled : manager.handles event with
  | none =>
    simp only [handled] at called
    simp [called.2]
  | some msg =>
    simp only [handled] at called
    rw [called.2, Option.toList_some, List.flatMap_singleton]
    have all := callListeners_calls event.throws msg 0 manager.listeners
    simpa using all

end ChatManager.Sound

namespace ChatManager

variable (id : PublicKey)

theorem trace_react (events : List ChatEvent) {moment : ChatMoment}
    (member : moment ∈ react.trace (new id) events) :
    moment.after = (moment.before.react moment.input).1 ∧
      moment.outputs = (moment.before.react moment.input).2 := by
  obtain ⟨-, -, answer⟩ := react.trace_mem member
  exact ⟨congrArg Prod.fst answer, congrArg Prod.snd answer⟩

theorem run_window (events : List ChatEvent)
    (sound : ∀ moment ∈ react.trace (new id) events, moment.before.Sound moment.input) :
    (react.run (new id) events).1.chatLog =
      (accepted (react.trace (new id) events)).rtake entries := by
  refine react.trace_steps (fun manager moments =>
    manager.chatLog = (accepted moments).rtake entries) (new id) events rfl ?_
  intro moment member answer moments window
  rw [accepted_snoc, (trace_react id events member).1]
  exact (sound moment member).window window

theorem trace_window (events : List ChatEvent)
    (sound : ∀ moment ∈ react.trace (new id) events, moment.before.Sound moment.input)
    {earlier later : List ChatMoment} {moment : ChatMoment}
    (split : react.trace (new id) events = earlier ++ moment :: later) :
    moment.after.chatLog = (accepted (earlier ++ [moment])).rtake entries := by
  have member : moment ∈ react.trace (new id) events := by simp [split]
  obtain ⟨before, rest, -, rfl, start, -⟩ := react.trace_split split
  have kept := run_window id before fun other isEarlier =>
    sound other (split ▸ List.mem_append_left _ isEarlier)
  rw [accepted_snoc, (trace_react id events member).1]
  exact (sound moment member).window (start ▸ kept)

theorem accepted_wellFormed (moments : List ChatMoment) {msg : Parsed}
    (member : msg ∈ accepted moments) : msg.wellFormed = true := by
  obtain ⟨moment, -, isAccepted⟩ := List.mem_flatMap.mp member
  exact (Option.filter_eq_some_iff.mp (Option.mem_toList.mp isAccepted)).2

/-- A run keeps its log a window over the accepted messages, and tells every listener of each,
exactly when every delivered value is a message of the right size and no listener but the last
throws. -/
theorem keeps_window_iff (events : List ChatEvent) :
    let run := react.trace (new id) events
    KeepsWindow run ↔ ∀ moment ∈ run, Calm moment := by
  intro run
  constructor
  · intro keeps moment member
    obtain ⟨after, outputs⟩ := trace_react id events member
    have sound : moment.before.Sound moment.input := fun msg handled =>
      keeps.wellFormed moment member msg (after ▸ handled_logged _ _ handled)
    exact ⟨fun throws data delivered msg parsed => sound msg (delivered ▸ parsed),
      sound.calls_iff.mp (outputs ▸ keeps.calls moment member)⟩
  · intro calm
    have sound (moment : ChatMoment) (member : moment ∈ run) : moment.before.Sound moment.input :=
      .of_delivered (calm moment member).delivered
    refine ⟨?window, ?wellFormed, ?rejects, ?calls⟩
    case window => exact fun earlier moment later => trace_window id events sound
    case wellFormed =>
      intro moment member entry logged
      obtain ⟨earlier, later, split⟩ := List.append_of_mem member
      rw [trace_window id events sound split] at logged
      exact accepted_wellFormed _ (List.mem_of_mem_drop logged)
    case rejects =>
      intro moment member none
      rw [(trace_react id events member).1]
      exact (sound moment member).rejects none
    case calls =>
      intro moment member
      rw [(trace_react id events member).2]
      exact (sound moment member).calls_iff.mpr (calm moment member).returns

theorem window_broken :
    ¬KeepsWindow (react.trace (new (.small 1)) [.deliver (fun _ => false) "7".toUTF8.toList]) ∧
      ¬KeepsWindow (react.trace (new (.small 1))
        [.listen 1, .listen 2,
          .send (fun call => call = 0) (Text.ofString "12:00") (Text.ofString "hi")]) := by
  refine ⟨fun keeps => ?_, fun keeps => ?_⟩
  · have number := keeps.wellFormed _ List.mem_cons_self (.other "7") (by decide +kernel)
    cases number
  · have called := keeps.calls _
      (List.mem_cons_of_mem _ (List.mem_cons_of_mem _ List.mem_cons_self))
    exact absurd called (by decide +kernel)

end ChatManager

end RoundTable.Client
