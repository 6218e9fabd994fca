import RoundTable.Shared.Reactive

set_option autoImplicit false

namespace RoundTable.Client

open Reactive

variable {Config : Type}

-- A node, named by the call that creates it.
structure Libp2p (Config : Type) where
  call : Nat
  config : Config
deriving DecidableEq

-- How far a call of `getP2PNode` has come. It waits for `create`, and then for `start`.
inductive P2PCall (Config : Type) where
  | creating (config : Config)
  | starting (config : Config)
  | returned (node : Libp2p Config)
  | rejected

inductive P2PEvent (Config : Type) where
  | getP2PNode (config : Config)
  | created (call : Nat)
  | createFailed (call : Nat)
  | started (call : Nat)
  | startFailed (call : Nat)

inductive P2POutput (Config : Type) where
  | create (call : Nat) (config : Config)
  | start (call : Nat)
  | returned (call : Nat) (node : Libp2p Config)
  | rejected (call : Nat)
deriving DecidableEq

structure P2P (Config : Type) where
  nodeInstance : Option (Libp2p Config)
  calls : List (P2PCall Config)

namespace P2P

def new : P2P Config := ⟨none, []⟩

def settle (p2p : P2P Config) (call : Nat) (state : P2PCall Config) : P2P Config :=
  { p2p with calls := p2p.calls.set call state }

def getP2PNode : Machine (P2P Config) (P2PEvent Config) (P2POutput Config) := fun p2p event =>
  match event with
  | .getP2PNode config =>
    let call := p2p.calls.length
    match p2p.nodeInstance with
    | none => ({ p2p with calls := p2p.calls ++ [.creating config] }, [.create call config])
    | some node => ({ p2p with calls := p2p.calls ++ [.returned node] }, [.returned call node])
  | .created call =>
    match p2p.calls[call]? with
    | some (.creating config) => (p2p.settle call (.starting config), [.start call])
    | _ => (p2p, [])
  | .started call =>
    match p2p.calls[call]? with
    | some (.starting config) =>
      let node : Libp2p Config := ⟨call, config⟩
      ({ p2p.settle call (.returned node) with nodeInstance := some node }, [.returned call node])
    | _ => (p2p, [])
  | .createFailed call =>
    match p2p.calls[call]? with
    | some (.creating _) => (p2p.settle call .rejected, [.rejected call])
    | _ => (p2p, [])
  | .startFailed call =>
    match p2p.calls[call]? with
    | some (.starting _) => (p2p.settle call .rejected, [.rejected call])
    | _ => (p2p, [])

end P2P

def P2PEvent.config : P2PEvent Config → Option Config
  | .getP2PNode config => some config
  | _ => none

abbrev P2PMoment (Config : Type) :=
  Record Unit (P2P Config) (P2PEvent Config) (P2POutput Config)

def StartsAnother (moment : P2PMoment Config) : Prop :=
  ∃ call config, moment.input = .started call ∧
    moment.before.calls[call]? = some (.starting config) ∧ moment.before.nodeInstance ≠ none

def Returned (run : List (P2PMoment Config)) (call : Nat) (node : Libp2p Config) : Prop :=
  ∃ moment ∈ run, .returned call node ∈ moment.outputs

def SharesOneNode (run : List (P2PMoment Config)) : Prop :=
  ∀ call call' node node', Returned run call node → Returned run call' node' → node = node'

namespace P2P

inductive Does (p2p : P2P Config) : P2PEvent Config → List (P2POutput Config) → P2P Config → Prop
  | begins (config : Config) (none : p2p.nodeInstance = none) :
      Does p2p (.getP2PNode config) [.create p2p.calls.length config]
        { p2p with calls := p2p.calls ++ [.creating config] }
  | shares (config : Config) (node : Libp2p Config) (kept : p2p.nodeInstance = some node) :
      Does p2p (.getP2PNode config) [.returned p2p.calls.length node]
        { p2p with calls := p2p.calls ++ [.returned node] }
  | creates (call : Nat) (config : Config)
      (creating : p2p.calls[call]? = some (.creating config)) :
      Does p2p (.created call) [.start call] (p2p.settle call (.starting config))
  | starts (call : Nat) (config : Config)
      (starting : p2p.calls[call]? = some (.starting config)) :
      Does p2p (.started call) [.returned call ⟨call, config⟩]
        { p2p.settle call (.returned ⟨call, config⟩) with nodeInstance := some ⟨call, config⟩ }
  | fails (event : P2PEvent Config) (call : Nat) (state : P2PCall Config)
      (waiting : p2p.calls[call]? = some state) (unsettled : ∀ node, state ≠ .returned node)
      (later : event.config = none) :
      Does p2p event [.rejected call] (p2p.settle call .rejected)
  | idle (event : P2PEvent Config) (later : event.config = none) : Does p2p event [] p2p

theorem getP2PNode_does (p2p : P2P Config) (event : P2PEvent Config) :
    Does p2p event (getP2PNode p2p event).2 (getP2PNode p2p event).1 := by
  cases event with
  | getP2PNode config =>
    cases kept : p2p.nodeInstance with
    | none => simpa [getP2PNode, kept] using Does.begins config kept
    | some node => simpa [getP2PNode, kept] using Does.shares config node kept
  | created call =>
    simp only [getP2PNode]
    split
    next config creating => exact .creates call config creating
    next => exact .idle _ rfl
  | started call =>
    simp only [getP2PNode]
    split
    next config starting => exact .starts call config starting
    next => exact .idle _ rfl
  | createFailed call | startFailed call =>
    simp only [getP2PNode]
    split
    next waiting => exact .fails _ call _ waiting (by simp) rfl
    next => exact .idle _ rfl

/-- The calls have the configurations that they were made with. A node that is kept or has been
returned is the one that its own call has returned, made with the configuration of that call. -/
structure Sound (p2p : P2P Config) (configs : List Config) : Prop where
  length : p2p.calls.length = configs.length
  waiting : ∀ (call : Nat) (config : Config), p2p.calls[call]? = some (.creating config) ∨
    p2p.calls[call]? = some (.starting config) → configs[call]? = some config
  kept : ∀ node, p2p.nodeInstance = some node → p2p.calls[node.call]? = some (.returned node)
  unkept : p2p.nodeInstance = none → ∀ (call : Nat) (node : Libp2p Config),
    p2p.calls[call]? ≠ some (.returned node)
  made : ∀ (call : Nat) (node : Libp2p Config), p2p.calls[call]? = some (.returned node) →
    node.call ≤ call ∧ configs[node.call]? = some node.config ∧
      p2p.calls[node.call]? = some (.returned node)

variable {p2p after : P2P Config} {event : P2PEvent Config} {outputs : List (P2POutput Config)}

theorem Does.returned (does : Does p2p event outputs after) (call : Nat) (node : Libp2p Config) :
    after.calls[call]? = some (.returned node) ↔
      p2p.calls[call]? = some (.returned node) ∨ .returned call node ∈ outputs := by
  cases does with
  | begins | shares => grind
  | creates | starts | fails => grind [settle]
  | idle => simp

theorem Does.sound (does : Does p2p event outputs after) {configs : List Config}
    (sound : Sound p2p configs) : Sound after (configs ++ (event.config).toList) := by
  obtain ⟨length, waiting, kept, unkept, made⟩ := sound
  cases does with
  | begins config none =>
    constructor <;> grind [P2PEvent.config]
  | shares config node isKept =>
    constructor <;> grind [P2PEvent.config]
  | creates call config creating =>
    constructor <;> grind [P2PEvent.config, settle]
  | starts call config starting =>
    constructor <;> grind [P2PEvent.config, settle]
  | fails event call state failing unsettled later =>
    rw [later, Option.toList_none, List.append_nil]
    constructor <;> grind [settle]
  | idle event later =>
    rw [later, Option.toList_none, List.append_nil]
    exact ⟨length, waiting, kept, unkept, made⟩

section Alone

variable (does : Does p2p event outputs after)
variable (alone : ∀ (call : Nat) (config : Config), event = .started call →
  p2p.calls[call]? = some (.starting config) → p2p.nodeInstance = none)

include does

theorem Does.returns_kept {call : Nat} {node : Libp2p Config}
    (returned : .returned call node ∈ outputs) : after.nodeInstance = some node := by
  cases does with
  | shares config kept isKept =>
    obtain ⟨-, rfl⟩ : call = p2p.calls.length ∧ node = kept := by simpa using returned
    exact isKept
  | starts call' config starting =>
    obtain ⟨-, rfl⟩ : call = call' ∧ node = ⟨call', config⟩ := by simpa using returned
    rfl
  | begins | creates | fails | idle => simp at returned

include alone in
theorem Does.stays_kept {node : Libp2p Config} (kept : p2p.nodeInstance = some node) :
    after.nodeInstance = some node := by
  cases does with
  | starts call config starting =>
    rw [alone call config rfl starting] at kept
    cases kept
  | begins | shares | creates | fails | idle => exact kept

end Alone

theorem run_sound (events : List (P2PEvent Config)) :
    Sound (getP2PNode.run new events).1 (events.filterMap P2PEvent.config) := by
  induction events using List.reverseRecOn with
  | nil => constructor <;> simp [new]
  | append_singleton events event ih =>
    rw [Machine.run_snoc, List.filterMap_append]
    have step := (getP2PNode_does (getP2PNode.run new events).1 event).sound ih
    cases config : event.config <;> simpa [config] using step

theorem returned_iff (events : List (P2PEvent Config)) (call : Nat) (node : Libp2p Config) :
    Returned (getP2PNode.trace new events) call node ↔
      (getP2PNode.run new events).1.calls[call]? = some (.returned node) := by
  induction events using List.reverseRecOn with
  | nil => simp [Returned, Machine.trace, new]
  | append_singleton events event ih =>
    rw [Machine.run_snoc, (getP2PNode_does (getP2PNode.run new events).1 event).returned call node,
      ← ih, Machine.trace_snoc]
    simp [Returned, or_and_right, exists_or]

/-- Whatever the interleaving, a call returns a node that an earlier call has created, or the call
itself, with the configuration of the call that has created it, which returned it too. -/
theorem returned_node (events : List (P2PEvent Config)) {call : Nat} {node : Libp2p Config}
    (returned : Returned (getP2PNode.trace new events) call node) :
    node.call ≤ call ∧ (events.filterMap P2PEvent.config)[node.call]? = some node.config ∧
      Returned (getP2PNode.trace new events) node.call node := by
  rw [returned_iff] at returned ⊢
  exact (run_sound events).made call node returned

theorem returned_node_first :
    let events : List (P2PEvent Nat) := [.getP2PNode 1, .created 0, .started 0, .getP2PNode 2]
    0 ≤ 1 ∧ (events.filterMap P2PEvent.config)[0]? = some 1 ∧
      Returned (getP2PNode.trace new events) 0 ⟨0, 1⟩ := by
  intro events
  have returned : Returned (getP2PNode.trace new events) 1 ⟨0, 1⟩ :=
    (returned_iff events 1 ⟨0, 1⟩).mpr rfl
  exact returned_node events returned

/-- The clients of a page share one node exactly when no node starts while another is kept. -/
theorem shares_one_node_iff (events : List (P2PEvent Config)) :
    let run := getP2PNode.trace new events
    SharesOneNode run ↔ ∀ moment ∈ run, ¬StartsAnother moment := by
  intro run
  constructor
  · -- the kept node and the new one have both been returned
    rintro shares moment member ⟨call, config, isStarted, starting, another⟩
    obtain ⟨node, kept⟩ := Option.ne_none_iff_exists'.mp another
    obtain ⟨earlier, later, split⟩ := List.append_of_mem member
    obtain ⟨before, -, -, history, reached, answer⟩ := getP2PNode.trace_split split
    rw [reached] at kept
    have held := (run_sound before).kept node kept
    have old : Returned run node.call node := by
      obtain ⟨moment', member', returned⟩ := (returned_iff before node.call node).mpr held
      exact ⟨moment', split ▸ List.mem_append_left _ (history ▸ member'), returned⟩
    have new_ : Returned run call ⟨call, config⟩ := by
      refine ⟨moment, member, ?_⟩
      rw [isStarted] at answer
      simp [(Prod.mk.inj answer).2, starting]
    obtain rfl := shares _ _ _ _ old new_
    rw [← reached, starting] at held
    cases held
  · intro alone
    -- whatever has been returned is the node that is kept
    have same : ∀ call node, Returned run call node →
        (getP2PNode.run new events).1.nodeInstance = some node := by
      refine getP2PNode.trace_steps (fun p2p records => ∀ call node, Returned records call node →
        p2p.nodeInstance = some node) new events (by simp [Returned]) ?_
      intro moment member answer records kept call node returned
      have does := getP2PNode_does moment.before moment.input
      rw [← answer] at does
      have earlier : Returned records call node ∨ .returned call node ∈ moment.outputs := by
        simpa [Returned, or_and_right, exists_or] using returned
      rcases earlier with old | now
      · refine does.stays_kept (fun call config isStarted starting => ?_) (kept call node old)
        exact not_not.mp fun another => alone moment member ⟨call, config, isStarted, starting, another⟩
      · exact does.returns_kept now
    intro call call' node node' returned returned'
    exact Option.some.inj ((same _ _ returned).symm.trans (same _ _ returned'))

example : (getP2PNode.run (new : P2P Nat) [.getP2PNode 1, .getP2PNode 2, .created 0, .created 1,
      .started 1, .started 0]).2 =
    [.create 0 1, .create 1 2, .start 0, .start 1, .returned 1 ⟨1, 2⟩, .returned 0 ⟨0, 1⟩] := by
  decide

end P2P

end RoundTable.Client
