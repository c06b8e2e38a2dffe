import Mathlib.Data.List.Basic
import Mathlib.Tactic.Common

namespace ApmSdk

/-!
# Transducers

A transducer reads its input item by item and gives one output for each.  Where the input
is cut makes no difference to it, and a chain of transducers that each process a whole list
before the next one does is one transducer.  Nothing here depends on a particular one.
-/

/-- What is given for an item, and the state behind it. -/
structure Transducer (State Input Output : Type*) where
  output : State → Input → Output
  next : State → Input → State

namespace Transducer

variable {State Input Output : Type*}
variable (transducer : Transducer State Input Output)

/-- The outputs for a list. -/
def outputs : State → List Input → List Output
  | _, [] => []
  | state, input :: rest =>
      transducer.output state input ::
        outputs (transducer.next state input) rest

/-- The state behind a list. -/
def final (state : State) (inputs : List Input) : State :=
  inputs.foldl transducer.next state

@[simp] theorem outputs_nil (state : State) :
    transducer.outputs state [] = [] :=
  rfl

@[simp] theorem final_nil (state : State) :
    transducer.final state [] = state :=
  rfl

@[simp] theorem final_cons (state : State) (input : Input) (rest : List Input) :
    transducer.final state (input :: rest) =
      transducer.final (transducer.next state input) rest :=
  rfl

@[simp] theorem length_outputs (state : State) (inputs : List Input) :
    (transducer.outputs state inputs).length = inputs.length := by
  induction inputs generalizing state with
  | nil =>
      rfl
  | cons input rest inductionHypothesis =>
      rw [outputs, List.length_cons, List.length_cons, inductionHypothesis]

/-- The outputs for two lists one after another. -/
theorem outputs_append (state : State) (first second : List Input) :
    transducer.outputs state (first ++ second) =
      transducer.outputs state first ++
        transducer.outputs (transducer.final state first) second := by
  induction first generalizing state with
  | nil =>
      rfl
  | cons input rest inductionHypothesis =>
      rw [List.cons_append, outputs, outputs, List.cons_append,
        inductionHypothesis, final_cons]

theorem final_append (state : State) (first second : List Input) :
    transducer.final state (first ++ second) =
      transducer.final (transducer.final state first) second :=
  List.foldl_append

/-- An invariant that every item keeps holds behind a list, and with it what it says of the
outputs. -/
theorem kept
    {invariant : State → Prop}
    {accepts : Input → Prop}
    {gives : Output → Prop}
    (step :
      ∀ {state input},
        invariant state →
        accepts input →
        gives (transducer.output state input) ∧
          invariant (transducer.next state input))
    {state : State}
    {inputs : List Input}
    (start : invariant state)
    (accepted : ∀ input ∈ inputs, accepts input) :
    (∀ output ∈ transducer.outputs state inputs, gives output) ∧
      invariant (transducer.final state inputs) := by
  induction inputs generalizing state with
  | nil =>
      exact ⟨fun _ member => by contradiction, start⟩
  | cons input rest inductionHypothesis =>
      rw [List.forall_mem_cons] at accepted
      obtain ⟨given, kept⟩ := step start accepted.1
      obtain ⟨rest, last⟩ := inductionHypothesis kept accepted.2
      exact ⟨List.forall_mem_cons.mpr ⟨given, rest⟩, last⟩

/-! ## Several transducers -/

variable {OtherState OtherInput OtherOutput : Type*}

/-- The second transducer reads what the first one gives. -/
def chain
    (first : Transducer State Input OtherInput)
    (second : Transducer OtherState OtherInput Output) :
    Transducer (State × OtherState) Input Output where
  output state input :=
    second.output state.2 (first.output state.1 input)
  next state input :=
    (first.next state.1 input,
      second.next state.2 (first.output state.1 input))

section Chain

variable (first : Transducer State Input OtherInput)
variable (second : Transducer OtherState OtherInput Output)
variable (state : State) (other : OtherState)

/-- Two passes over a list are one pass of the chain. -/
theorem outputs_chain (inputs : List Input) :
    (first.chain second).outputs (state, other) inputs =
      second.outputs other (first.outputs state inputs) := by
  induction inputs generalizing state other with
  | nil =>
      rfl
  | cons input rest inductionHypothesis =>
      exact congrArg (List.cons _) (inductionHypothesis _ _)

theorem final_chain (inputs : List Input) :
    (first.chain second).final (state, other) inputs =
      (first.final state inputs,
        second.final other (first.outputs state inputs)) := by
  induction inputs generalizing state other with
  | nil =>
      rfl
  | cons input rest inductionHypothesis =>
      exact inductionHypothesis _ _

end Chain

/-- Two transducers read the parts of an item, and their outputs are combined. -/
def parallel
    {Item Combined : Type*}
    (first : Transducer State Input Output)
    (second : Transducer OtherState OtherInput OtherOutput)
    (parts : Item → Input × OtherInput)
    (combine : Output → OtherOutput → Combined) :
    Transducer (State × OtherState) Item Combined where
  output state item :=
    combine (first.output state.1 (parts item).1)
      (second.output state.2 (parts item).2)
  next state item :=
    (first.next state.1 (parts item).1, second.next state.2 (parts item).2)

section Parallel

variable {Item Combined : Type*}
variable (first : Transducer State Input Output)
variable (second : Transducer OtherState OtherInput OtherOutput)
variable (parts : Item → Input × OtherInput)
variable (combine : Output → OtherOutput → Combined)
variable (state : State) (other : OtherState)

/-- A pass over each part of a list is one pass of both. -/
theorem outputs_parallel (items : List Item) :
    (first.parallel second parts combine).outputs (state, other) items =
      List.zipWith combine
        (first.outputs state (items.map fun item => (parts item).1))
        (second.outputs other (items.map fun item => (parts item).2)) := by
  induction items generalizing state other with
  | nil =>
      rfl
  | cons item rest inductionHypothesis =>
      exact congrArg (List.cons _) (inductionHypothesis _ _)

theorem final_parallel (items : List Item) :
    (first.parallel second parts combine).final (state, other) items =
      (first.final state (items.map fun item => (parts item).1),
        second.final other (items.map fun item => (parts item).2)) := by
  induction items generalizing state other with
  | nil =>
      rfl
  | cons item rest inductionHypothesis =>
      exact inductionHypothesis _ _

end Parallel

end Transducer

end ApmSdk
