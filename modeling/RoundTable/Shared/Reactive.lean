import Mathlib.Data.List.Infix
import Mathlib.Logic.Relation
import Mathlib.Logic.Function.Basic

set_option autoImplicit false

/-!
# Machines that answer inputs, and networks of them

A machine answers each input with a new state and a list of outputs. A network runs one machine at
each node and keeps a record of every step, oldest first. Which inputs a node may take next can
depend on everything recorded so far.
-/

namespace Reactive

abbrev Machine (State Input Output : Type) := State → Input → State × List Output

namespace Machine

variable {State Input Output : Type} (machine : Machine State Input Output)

def run (start : State) (inputs : List Input) : State × List Output :=
  inputs.foldl
    (fun reached input =>
      let answer := machine reached.1 input
      (answer.1, reached.2 ++ answer.2))
    (start, [])

@[simp] theorem run_nil (start : State) : machine.run start [] = (start, []) := rfl

@[simp] theorem run_singleton (start : State) (input : Input) :
    machine.run start [input] = machine start input := rfl

theorem run_snoc (start : State) (inputs : List Input) (input : Input) :
    machine.run start (inputs ++ [input]) =
      let reached := machine.run start inputs
      let answer := machine reached.1 input
      (answer.1, reached.2 ++ answer.2) := by
  simp [run, List.foldl_append]

/-- What holds at the start, and is kept by every input of a run, holds after the run. -/
theorem run_invariant (kept : State → List Output → Prop) (start : State) (inputs : List Input)
    (initial : kept start [])
    (preserved : ∀ state outputs, ∀ input ∈ inputs, kept state outputs →
      kept (machine state input).1 (outputs ++ (machine state input).2)) :
    kept (machine.run start inputs).1 (machine.run start inputs).2 := by
  induction inputs using List.reverseRecOn with
  | nil => exact initial
  | append_singleton inputs input ih =>
    rw [run_snoc]
    apply preserved _ _ input (by simp)
    exact ih fun state outputs input member => preserved state outputs input (by simp [member])

theorem run_replayed {Model Command : Type} (asks : Output → Option Command)
    (apply : Model → Command → Option Model) (related : State → Model → Prop) (start : State)
    (model : Model) (inputs : List Input) (initial : related start model)
    (preserved : ∀ state model, ∀ input ∈ inputs, related state model →
      ∃ model', ((machine state input).2.filterMap asks).foldlM apply model = some model' ∧
        related (machine state input).1 model') :
    ∃ model', ((machine.run start inputs).2.filterMap asks).foldlM apply model = some model' ∧
      related (machine.run start inputs).1 model' := by
  apply machine.run_invariant (fun state outputs =>
    ∃ model', (outputs.filterMap asks).foldlM apply model = some model' ∧ related state model')
  · exact ⟨model, rfl, initial⟩
  · rintro state outputs input member ⟨reached, replayed, isRelated⟩
    obtain ⟨model', answered, isRelated'⟩ := preserved state reached input member isRelated
    refine ⟨model', ?_, isRelated'⟩
    rw [List.filterMap_append, List.foldlM_append, replayed]
    exact answered

theorem run_related (related : State → State → Prop) (shown : Output → Bool)
    (preserved : ∀ first second input, related first second →
      related (machine first input).1 (machine second input).1 ∧
        (machine first input).2.filter shown = (machine second input).2.filter shown)
    {first second : State} (initial : related first second) (inputs : List Input) :
    related (machine.run first inputs).1 (machine.run second inputs).1 ∧
      (machine.run first inputs).2.filter shown = (machine.run second inputs).2.filter shown := by
  induction inputs using List.reverseRecOn with
  | nil => exact ⟨initial, rfl⟩
  | append_singleton inputs input ih =>
    obtain ⟨states, outputs⟩ := ih
    obtain ⟨states', outputs'⟩ := preserved _ _ input states
    rw [run_snoc, run_snoc, List.filter_append, List.filter_append, outputs, outputs']
    exact ⟨states', rfl⟩

end Machine

section Occurrences

variable {α : Type}

theorem split_at {xs : List α} {i : Nat} {a : α} (found : xs[i]? = some a) :
    xs = xs.take i ++ a :: xs.drop (i + 1) := by
  obtain ⟨inside, rfl⟩ := List.getElem?_eq_some_iff.mp found
  rw [← List.drop_eq_getElem_cons inside, List.take_append_drop]

theorem getElem?_later {xs : List α} {i j : Nat} {a : α} (before : i < j) (found : xs[j]? = some a) :
    a ∈ xs.drop (i + 1) := by
  apply List.mem_of_getElem? (i := j - (i + 1))
  rw [List.getElem?_drop, ← found]
  congr 1
  omega

theorem getElem?_earlier {xs : List α} {i j : Nat} {a : α} (before : i < j)
    (found : xs[i]? = some a) : a ∈ xs.take j := by
  apply List.mem_of_getElem? (i := i)
  rw [List.getElem?_take_of_lt before, found]

variable (p : α → Bool)

theorem exists_last {xs : List α} (some : ∃ x ∈ xs, p x) :
    ∃ before x after, xs = before ++ x :: after ∧ p x ∧ ∀ y ∈ after, ¬p y := by
  induction xs using List.reverseRecOn with
  | nil => simp at some
  | append_singleton xs x ih =>
    by_cases holds : p x
    · exact ⟨xs, x, [], rfl, holds, by simp⟩
    · obtain ⟨y, member, yes⟩ := some
      have inside : y ∈ xs := by
        obtain inside | rfl := List.mem_append.mp member |>.imp_right List.mem_singleton.mp
        · exact inside
        · exact absurd yes holds
      obtain ⟨before, z, after, rfl, isLast, none⟩ := ih ⟨y, inside, yes⟩
      refine ⟨before, z, after ++ [x], by simp, isLast, fun y later => ?_⟩
      obtain earlier | rfl := List.mem_append.mp later |>.imp_right List.mem_singleton.mp
      · exact none y earlier
      · exact holds

theorem two_le_countP {xs : List α} {i j : Nat} {a b : α} (before : i < j) (first : xs[i]? = some a)
    (second : xs[j]? = some b) (holds : p a) (holds' : p b) : 2 ≤ xs.countP p := by
  induction xs generalizing i j with
  | nil => simp at first
  | cons x xs ih =>
    cases j with
    | zero => omega
    | succ j =>
      rw [List.getElem?_cons_succ] at second
      cases i with
      | zero =>
        obtain rfl : x = a := by simpa using first
        have rest : 0 < xs.countP p :=
          List.countP_pos_iff.mpr ⟨b, List.mem_of_getElem? second, holds'⟩
        rw [List.countP_cons_of_pos holds]
        omega
      | succ i =>
        rw [List.getElem?_cons_succ] at first
        have rest := ih (by omega) first second
        have grows := List.countP_cons (p := p) (a := x) (l := xs)
        omega

theorem countP_le_one {xs : List α}
    (unique : ∀ (i j : Nat) (a b : α), xs[i]? = some a → xs[j]? = some b → p a → p b → i = j) :
    xs.countP p ≤ 1 := by
  induction xs with
  | nil => simp
  | cons x xs ih =>
    have rest := ih fun i j a b first second holds holds' => by
      have same := unique (i + 1) (j + 1) a b (by simpa using first) (by simpa using second) holds
        holds'
      omega
    by_cases holds : p x
    · have none : xs.countP p = 0 := by
        rw [List.countP_eq_zero]
        intro a member holds'
        obtain ⟨i, found⟩ := List.getElem?_of_mem member
        have same := unique 0 (i + 1) x a (by simp) (by simpa using found) holds holds'
        omega
      rw [List.countP_cons_of_pos holds, none]
    · rw [List.countP_cons_of_neg holds]
      exact rest

end Occurrences

variable {Node State Input Output : Type}

structure Record (Node State Input Output : Type) where
  node : Node
  before : State
  input : Input
  after : State
  outputs : List Output

namespace Machine

variable (machine : Machine State Input Output)

def trace : State → List Input → List (Record Unit State Input Output)
  | _, [] => []
  | state, input :: inputs =>
    let answer := machine state input
    { node := (), before := state, input, after := answer.1, outputs := answer.2 } ::
      trace answer.1 inputs

theorem trace_append (start : State) (inputs inputs' : List Input) :
    machine.trace start (inputs ++ inputs') =
      machine.trace start inputs ++ machine.trace (machine.run start inputs).1 inputs' := by
  induction inputs using List.reverseRecOn generalizing inputs' with
  | nil => rfl
  | append_singleton inputs input ih =>
    rw [List.append_assoc, ih, ih, List.append_assoc, run_snoc]
    rfl

theorem trace_snoc (start : State) (inputs : List Input) (input : Input) :
    machine.trace start (inputs ++ [input]) =
      machine.trace start inputs ++
        [{ node := ()
           before := (machine.run start inputs).1
           input
           after := (machine.run start (inputs ++ [input])).1
           outputs := (machine (machine.run start inputs).1 input).2 }] := by
  rw [trace_append, run_snoc]
  rfl

theorem trace_chain (start : State) (inputs : List Input) :
    (machine.trace start inputs).IsChain fun record next => next.before = record.after := by
  induction inputs generalizing start with
  | nil => exact .nil
  | cons input inputs ih =>
    cases inputs with
    | nil => exact .singleton _
    | cons input' inputs => exact .cons_cons rfl (ih _)

theorem trace_split {start : State} {inputs : List Input}
    {earlier later : List (Record Unit State Input Output)}
    {record : Record Unit State Input Output}
    (split : machine.trace start inputs = earlier ++ record :: later) :
    ∃ before after, inputs = before ++ record.input :: after ∧
      machine.trace start before = earlier ∧ record.before = (machine.run start before).1 ∧
        (record.after, record.outputs) = machine record.before record.input := by
  induction inputs using List.reverseRecOn generalizing later with
  | nil => simp [trace] at split
  | append_singleton inputs input ih =>
    rw [trace_snoc] at split
    rcases List.eq_nil_or_concat later with rfl | ⟨rest, last, rfl⟩
    · obtain ⟨rfl, same⟩ := List.append_inj' split rfl
      obtain rfl := List.singleton_inj.mp same
      exact ⟨inputs, [], rfl, rfl, rfl, by rw [run_snoc]⟩
    · rw [List.concat_eq_append, ← List.cons_append, ← List.append_assoc] at split
      obtain ⟨before, after, rfl, found⟩ := ih (List.append_inj' split rfl).1
      exact ⟨before, after ++ [input], by simp, found⟩

theorem trace_mem {start : State} {inputs : List Input} {record : Record Unit State Input Output}
    (member : record ∈ machine.trace start inputs) :
    record.input ∈ inputs ∧ (∃ before, record.before = (machine.run start before).1) ∧
      (record.after, record.outputs) = machine record.before record.input := by
  obtain ⟨earlier, later, split⟩ := List.append_of_mem member
  obtain ⟨before, after, same, -, reached, answer⟩ := machine.trace_split split
  exact ⟨same ▸ List.mem_append_right _ List.mem_cons_self, ⟨before, reached⟩, answer⟩

theorem trace_steps (kept : State → List (Record Unit State Input Output) → Prop)
    (start : State) (inputs : List Input) (initial : kept start [])
    (preserved : ∀ record ∈ machine.trace start inputs,
      (record.after, record.outputs) = machine record.before record.input → ∀ records,
        kept record.before records → kept record.after (records ++ [record])) :
    kept (machine.run start inputs).1 (machine.trace start inputs) := by
  induction inputs using List.reverseRecOn with
  | nil => exact initial
  | append_singleton inputs input ih =>
    rw [trace_snoc] at preserved ⊢
    have before := ih fun record member => preserved record (List.mem_append_left _ member)
    refine preserved _ (List.mem_append_right _ (List.mem_singleton_self _)) ?_ _ before
    rw [run_snoc]

theorem trace_invariant (kept : State → List (Record Unit State Input Output) → Prop)
    (start : State) (inputs : List Input) (initial : kept start [])
    (preserved : ∀ state records, ∀ input ∈ inputs, kept state records →
      kept (machine state input).1 (records ++
        [{ node := (), before := state, input, after := (machine state input).1
           outputs := (machine state input).2 }])) :
    kept (machine.run start inputs).1 (machine.trace start inputs) := by
  refine machine.trace_steps kept start inputs initial fun record member answer records before => ?_
  have next := preserved record.before records record.input (machine.trace_mem member).1 before
  rwa [← answer] at next

theorem trace_fold {Shown Fact : Type} (shows : State → Shown) (learn : Shown → Fact → Shown)
    (facts : Record Unit State Input Output → List Fact) (start : State) (inputs : List Input)
    (preserved : ∀ record ∈ machine.trace start inputs,
      shows record.after = (facts record).foldl learn (shows record.before)) :
    shows (machine.run start inputs).1 =
      ((machine.trace start inputs).flatMap facts).foldl learn (shows start) := by
  refine machine.trace_steps (fun state records =>
    shows state = (records.flatMap facts).foldl learn (shows start)) start inputs rfl ?_
  intro record member _ records before
  rw [preserved record member, before, List.flatMap_append, List.foldl_append]
  simp

end Machine

structure Network (Node State Input Output : Type) where
  nodes : Node → State
  history : List (Record Node State Input Output)

namespace Network

variable [DecidableEq Node] (machine : Machine State Input Output)

def answer (net : Network Node State Input Output) (node : Node) (input : Input) :
    Record Node State Input Output :=
  let result := machine (net.nodes node) input
  { node
    before := net.nodes node
    input
    after := result.1
    outputs := result.2 }

def advance (net : Network Node State Input Output) (node : Node) (input : Input) :
    Network Node State Input Output :=
  let record := net.answer machine node input
  { nodes := Function.update net.nodes node record.after
    history := net.history ++ [record] }

@[simp] theorem advance_history (net : Network Node State Input Output) (node : Node)
    (input : Input) :
    (net.advance machine node input).history =
      net.history ++ [net.answer machine node input] := rfl

theorem advance_self (net : Network Node State Input Output) (node : Node) (input : Input) :
    (net.advance machine node input).nodes node = (machine (net.nodes node) input).1 := by
  simp [advance, answer]

theorem advance_other (net : Network Node State Input Output) {node other : Node} (input : Input)
    (distinct : other ≠ node) :
    (net.advance machine node input).nodes other = net.nodes other := by
  simp [advance, distinct]

-- What one node has done, with what `reads` takes from its inputs.
def recordsOf {Input' : Type} (reads : Input → Input')
    (history : List (Record Node State Input Output)) (node : Node) :
    List (Record Unit State Input' Output) :=
  (history.filter (·.node = node)).map fun record =>
    { node := ()
      before := record.before
      input := reads record.input
      after := record.after
      outputs := record.outputs }

def restrict (start : Node → State) (keep : Node → Bool)
    (net : Network Node State Input Output) : Network Node State Input Output where
  nodes node := if keep node then net.nodes node else start node
  history := net.history.filter fun record => keep record.node

theorem restrict_advance (start : Node → State) {keep : Node → Bool}
    {net : Network Node State Input Output} {node : Node} {input : Input} (kept : keep node = true) :
    (net.advance machine node input).restrict start keep =
      (net.restrict start keep).advance machine node input := by
  have same : (net.restrict start keep).answer machine node input =
      net.answer machine node input := by
    simp [restrict, answer, kept]
  simp only [advance, same]
  simp only [restrict, mk.injEq]
  constructor
  · funext other
    by_cases moved : other = node
    · subst moved
      simp [kept]
    · simp [moved]
  · simp [answer, kept]

theorem restrict_advance_other (start : Node → State) {keep : Node → Bool}
    {net : Network Node State Input Output} {node : Node} {input : Input}
    (left : keep node = false) :
    (net.advance machine node input).restrict start keep = net.restrict start keep := by
  simp only [restrict, advance, mk.injEq]
  constructor
  · funext other
    by_cases moved : other = node
    · subst moved
      simp [left]
    · simp [moved]
  · simp [answer, left]

abbrev Enabled (Node State Input Output : Type) :=
  List (Record Node State Input Output) → Node → Input → Prop

inductive Reachable (enabled : Enabled Node State Input Output) (start : Node → State) :
    Network Node State Input Output → Prop where
  | start : Reachable enabled start ⟨start, []⟩
  | step (net : Network Node State Input Output) (node : Node) (input : Input)
      (reached : Reachable enabled start net) (allowed : enabled net.history node input) :
      Reachable enabled start (net.advance machine node input)

namespace Reachable

variable {machine} {enabled : Enabled Node State Input Output} {start : Node → State}
variable {net : Network Node State Input Output}

/-- What relates a node to the history from the start, and is kept by the steps of that node and of
the others, relates every node to the history. -/
theorem everywhere (kept : List (Record Node State Input Output) → Node → State → Prop)
    (initial : ∀ node, kept [] node (start node))
    (others : ∀ history record node state, record.node ≠ node → kept history node state →
      kept (history ++ [record]) node state)
    (own : ∀ (net : Network Node State Input Output) (node : Node) (input : Input),
      Reachable machine enabled start net → enabled net.history node input →
        kept net.history node (net.nodes node) →
          kept (net.history ++ [net.answer machine node input]) node
            (machine (net.nodes node) input).1)
    (reached : Reachable machine enabled start net) (node : Node) :
    kept net.history node (net.nodes node) := by
  induction reached generalizing node with
  | start => exact initial node
  | step net moved input reached allowed ih =>
    rw [advance_history]
    by_cases same : node = moved
    · subst same
      rw [advance_self]
      exact own net node input reached allowed (ih node)
    · rw [advance_other _ _ _ same]
      exact others _ _ _ _ (Ne.symm same) (ih node)

theorem recorded (reached : Reachable machine enabled start net)
    {earlier later : List (Record Node State Input Output)}
    {record : Record Node State Input Output} (split : net.history = earlier ++ record :: later) :
    ∃ past : Network Node State Input Output, Reachable machine enabled start past ∧
      past.history = earlier ∧ enabled earlier record.node record.input ∧
        record = past.answer machine record.node record.input := by
  induction reached generalizing earlier later with
  | start => simp at split
  | step net node input reached allowed ih =>
    rcases List.eq_nil_or_concat later with rfl | ⟨rest, last, rfl⟩
    · obtain ⟨rfl, rfl⟩ := List.append_inj' split rfl |>.imp_right (List.singleton_inj.mp ·)
      exact ⟨net, reached, rfl, allowed, rfl⟩
    · rw [List.concat_eq_append, ← List.cons_append, ← List.append_assoc] at split
      exact ih (List.append_inj' split rfl).1

theorem records_of {Input' : Type} (reads : Input → Input') (alone : Machine State Input' Output)
    (same : ∀ state input, machine state input = alone state (reads input))
    (reached : Reachable machine enabled start net) (node : Node) :
    ∃ inputs, recordsOf reads net.history node = alone.trace (start node) inputs ∧
      net.nodes node = (alone.run (start node) inputs).1 := by
  refine reached.everywhere (fun history node state =>
    ∃ inputs, recordsOf reads history node = alone.trace (start node) inputs ∧
      state = (alone.run (start node) inputs).1) ?_ ?_ ?_ node
  · exact fun node => ⟨[], rfl, rfl⟩
  · rintro history record node state other ⟨inputs, records, reached⟩
    exact ⟨inputs, by simp [recordsOf, other, ← records], reached⟩
  · rintro net node input - - ⟨inputs, records, reached⟩
    refine ⟨inputs ++ [reads input], ?_, ?_⟩
    · rw [Machine.trace_snoc, ← records, ← reached]
      simp [recordsOf, answer, same, Machine.run_snoc, ← reached]
    · simp only [Machine.run_snoc, ← reached, same]

/-- When what the nodes of a group may do depends on the group alone, the group runs as it would if
the others never moved. -/
theorem restrict {keep : Node → Bool}
    (closed : ∀ (net : Network Node State Input Output) (node : Node) (input : Input),
      Reachable machine enabled start net → keep node = true → enabled net.history node input →
        enabled (net.restrict start keep).history node input)
    (reached : Reachable machine enabled start net) :
    Reachable machine enabled start (net.restrict start keep) := by
  induction reached with
  | start =>
    have unmoved : Network.restrict start keep ⟨start, []⟩ =
        (⟨start, []⟩ : Network Node State Input Output) := by
      simp [Network.restrict]
    rw [unmoved]
    exact .start
  | step net node input reached allowed ih =>
    cases kept : keep node with
    | true =>
      rw [restrict_advance machine start kept]
      exact .step _ node input ih (closed net node input reached kept allowed)
    | false =>
      rwa [restrict_advance_other machine start kept]

/-- When every step is also a step of another network, or changes nothing there, the other network
follows the run. -/
theorem simulated {State' Input' Output' : Type} {machine' : Machine State' Input' Output'}
    {enabled' : Enabled Node State' Input' Output'} {start' : Node → State'}
    (related : Network Node State Input Output → Network Node State' Input' Output' → Prop)
    (initial : related ⟨start, []⟩ ⟨start', []⟩)
    (preserved : ∀ net net' node input, Reachable machine enabled start net →
      Reachable machine' enabled' start' net' → related net net' → enabled net.history node input →
        related (net.advance machine node input) net' ∨
          ∃ input', enabled' net'.history node input' ∧
            related (net.advance machine node input) (net'.advance machine' node input'))
    (reached : Reachable machine enabled start net) :
    ∃ net', Reachable machine' enabled' start' net' ∧ related net net' := by
  induction reached with
  | start => exact ⟨_, .start, initial⟩
  | step net node input reached allowed ih =>
    obtain ⟨net', reached', before⟩ := ih
    rcases preserved net net' node input reached reached' before allowed with
      unmoved | ⟨input', allowed', moved⟩
    · exact ⟨net', reached', unmoved⟩
    · exact ⟨_, .step net' node input' reached' allowed', moved⟩

theorem mono {enabled' : Enabled Node State Input Output}
    (weaker : ∀ history node input, enabled history node input → enabled' history node input)
    (reached : Reachable machine enabled start net) : Reachable machine enabled' start net := by
  induction reached with
  | start => exact .start
  | step net node input _ allowed ih => exact .step net node input ih (weaker _ _ _ allowed)

end Reachable

def play (net : Network Node State Input Output) (steps : List (Node × Input)) :
    Network Node State Input Output :=
  steps.foldl (fun net step => net.advance machine step.1 step.2) net

def Playable (enabled : Enabled Node State Input Output) :
    Network Node State Input Output → List (Node × Input) → Prop
  | _, [] => True
  | net, (node, input) :: steps =>
    enabled net.history node input ∧ Playable enabled (net.advance machine node input) steps

theorem reachable_play {enabled : Enabled Node State Input Output} {start : Node → State}
    {net : Network Node State Input Output} (reached : Reachable machine enabled start net)
    {steps : List (Node × Input)} (playable : Playable machine enabled net steps) :
    Reachable machine enabled start (net.play machine steps) := by
  induction steps generalizing net with
  | nil => exact reached
  | cons step steps ih => exact ih (.step net _ _ reached playable.1) playable.2

abbrev Continues (enabled : Enabled Node State Input Output) :
    Network Node State Input Output → Network Node State Input Output → Prop :=
  Relation.ReflTransGen fun net net' => ∃ node input, enabled net.history node input ∧
    net' = net.advance machine node input

namespace Continues

variable {machine} {enabled : Enabled Node State Input Output}
variable {net net' : Network Node State Input Output}

theorem advance (continues : Continues machine enabled net net') {node : Node} {input : Input}
    (allowed : enabled net'.history node input) :
    Continues machine enabled net (net'.advance machine node input) :=
  continues.tail ⟨node, input, allowed, rfl⟩

theorem history (continues : Continues machine enabled net net') :
    ∃ records, net'.history = net.history ++ records := by
  induction continues with
  | refl => exact ⟨[], by simp⟩
  | tail _ step ih =>
    obtain ⟨records, same⟩ := ih
    obtain ⟨node, input, -, rfl⟩ := step
    exact ⟨records ++ [_], by rw [advance_history, same, List.append_assoc]⟩

theorem reachable {enabled' : Enabled Node State Input Output} {start : Node → State}
    (weaker : ∀ history node input, enabled history node input → enabled' history node input)
    (reached : Reachable machine enabled' start net) (continues : Continues machine enabled net net') :
    Reachable machine enabled' start net' := by
  induction continues with
  | refl => exact reached
  | tail _ step ih =>
    obtain ⟨node, input, allowed, rfl⟩ := step
    exact .step _ node input ih (weaker _ _ _ allowed)

theorem simulated {State' Input' Output' : Type} {machine' : Machine State' Input' Output'}
    {enabled' : Enabled Node State' Input' Output'} {other : Network Node State' Input' Output'}
    (related : Network Node State Input Output → Network Node State' Input' Output' → Prop)
    (initial : related net other)
    (preserved : ∀ net other node input, related net other → enabled net.history node input →
      ∃ input', enabled' other.history node input' ∧
        related (net.advance machine node input) (other.advance machine' node input'))
    (continues : Continues machine enabled net net') :
    ∃ other', Continues machine' enabled' other other' ∧ related net' other' := by
  induction continues with
  | refl => exact ⟨other, .refl, initial⟩
  | tail _ step ih =>
    obtain ⟨other', goesOn, before⟩ := ih
    obtain ⟨node, input, allowed, rfl⟩ := step
    obtain ⟨input', allowed', moved⟩ := preserved _ _ node input before allowed
    exact ⟨_, goesOn.advance allowed', moved⟩

end Continues

end Network

end Reactive
