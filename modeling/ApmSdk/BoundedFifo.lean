import ApmSdk.LabelledPath

namespace ApmSdk.BoundedFifo

/-!
# Bounded queues in the abstract

A queue of limited capacity is the list of what it holds, the oldest element
first.  An event records a call together with its outcome, so that the step
relation says both when a call succeeds and what it yields.
-/

variable {α : Type*}

/-- A call on a queue, with its outcome. -/
inductive Event (α : Type*) where
  | insert (input : α) (accepted : Bool)
  | remove (removed : Option α)
  | clear
  deriving Repr, DecidableEq

/-- What a queue of the given capacity does. -/
def step
    (capacity : Nat)
    (queued : List α)
    (event : Event α)
    (after : List α) : Prop :=
  match event with
  | .insert input true =>
      queued.length < capacity ∧ after = queued ++ [input]
  | .insert _ false =>
      ¬ queued.length < capacity ∧ after = queued
  | .remove (some removed) =>
      queued = removed :: after
  | .remove none =>
      queued = [] ∧ after = queued
  | .clear =>
      after = []

end ApmSdk.BoundedFifo
