import ApmSdk.BoundedFifo
import ApmSdk.SwapQueue
import Mathlib.Data.Int.ModEq
import Mathlib.Data.List.Perm.Basic

namespace ApmSdk.SwapQueue

/-!
# The swap queue and the objects of its callers

A caller passes a pointer to an object of its own and finds another one there
when the call succeeds.  Over whole runs the queue is a bounded FIFO, and the
objects of the slots and of the callers are only ever permuted.
-/

variable {α : Type*}

/-- A queue together with the objects that belong to its callers. -/
structure Exchange (α : Type*) where
  swapQueue : SwapQueue α
  objects : List α

/--
One call: the position of the object that the pointer leads to, the object found
there and the outcome.
-/
inductive Call (α : Type*) where
  | insert (position : Nat) (input : α) (accepted : Bool)
  | remove (position : Nat) (output : α) (removed : Option α)
  | clear

namespace Exchange

/-- No call has been made; the callers have objects of their own. -/
def start
    (size : Nat)
    (prototype : α)
    (objects : List α) : Exchange α where
  swapQueue := create size prototype
  objects := objects

/-- `Insert` through a pointer to one of the objects: the state and the result. -/
def insertAt
    (exchange : Exchange α)
    (position : Nat)
    (input : α) : Exchange α × Bool :=
  match exchange.swapQueue.insert input with
  | some (swapQueue, returned) =>
      ({ swapQueue := swapQueue
         objects := exchange.objects.set position returned }, true)
  | none => (exchange, false)

/-- `Remove` through such a pointer, with what it leads to after a success. -/
def removeAt
    (exchange : Exchange α)
    (position : Nat)
    (output : α) : Exchange α × Option α :=
  match exchange.swapQueue.remove output with
  | some (swapQueue, removed) =>
      ({ swapQueue := swapQueue
         objects := exchange.objects.set position removed }, some removed)
  | none => (exchange, none)

/-- The transition relation; every pointer leads to an object of a caller. -/
def step
    (source : Exchange α)
    (call : Call α)
    (target : Exchange α) : Prop :=
  match call with
  | .insert position input accepted =>
      source.objects[position]? = some input ∧
        source.insertAt position input = (target, accepted)
  | .remove position output removed =>
      source.objects[position]? = some output ∧
        source.removeAt position output = (target, removed)
  | .clear =>
      target = { source with swapQueue := source.swapQueue.clear }

/-- All objects, those in the slots first. -/
def owned (exchange : Exchange α) : List α :=
  exchange.swapQueue.queue ++ exchange.objects

end Exchange

/-- What a call is to a queue without owners. -/
def Call.event : Call α → BoundedFifo.Event α
  | .insert _ input accepted => .insert input accepted
  | .remove _ _ removed => .remove removed
  | .clear => .clear

/-- The call has returned false. -/
def Call.Failed : Call α → Prop
  | .insert _ _ accepted => accepted = false
  | .remove _ _ removed => removed = none
  | .clear => False

/-- A move of the exchange, seen from the abstract queue. -/
def observe :
    Move (Exchange α) (Call α) → Move (List α) (BoundedFifo.Event α) :=
  Move.observe (fun exchange => exchange.swapQueue.contents) Call.event

/-- A full queue refuses an insert. -/
theorem numElements_of_insert_none
    {swapQueue : SwapQueue α}
    {input : α}
    (refused : swapQueue.insert input = none) :
    swapQueue.numElements = swapQueue.queue.length := by
  unfold insert at refused
  split at refused
  · assumption
  · simp at refused

/-- An insert that is accepted finds a slot free. -/
theorem lt_of_insert
    {before after : SwapQueue α}
    {input returned : α}
    (inserted : before.insert input = some (after, returned)) :
    before.contents.length < before.queue.length := by
  rw [length_contents]
  unfold insert at inserted
  split at inserted
  · simp at inserted
  · exact Nat.lt_of_le_of_ne before.elementsFit ‹_›

/-- Exchanging an element of one list with an element of another. -/
theorem perm_of_exchange
    {slots objects : List α}
    {slot position : Nat}
    {input : α}
    (inSlots : slot < slots.length)
    (found : objects[position]? = some input) :
    (slots.set slot input ++ objects.set position slots[slot]).Perm
      (slots ++ objects) := by
  obtain ⟨inObjects, rfl⟩ := List.getElem?_eq_some_iff.mp found
  have slotsAway := List.getElem_cons_eraseIdx_perm inSlots
  have objectsAway := List.getElem_cons_eraseIdx_perm inObjects
  have slotsSet := List.set_perm_cons_eraseIdx inSlots objects[position]
  have objectsSet := List.set_perm_cons_eraseIdx inObjects slots[slot]
  refine (slotsSet.append objectsSet).trans ?_
  refine List.Perm.trans ?_ (slotsAway.append objectsAway)
  exact
    (List.perm_middle.cons _).trans
      ((List.Perm.swap ..).trans (List.perm_middle.symm.cons _))

/-- Inserting swaps the caller's object with the slot to be written. -/
theorem owned_insertAt
    {exchange : Exchange α}
    {position : Nat}
    {input : α}
    (found : exchange.objects[position]? = some input) :
    ((exchange.insertAt position input).1.owned).Perm exchange.owned := by
  unfold Exchange.insertAt
  split
  next swapQueue returned inserted =>
      unfold insert at inserted
      split at inserted
      next => simp at inserted
      next notFull =>
          obtain ⟨rfl, rfl⟩ := Prod.mk.inj (Option.some.inj inserted)
          exact perm_of_exchange _ found
  next => exact .refl _

/-- Removing swaps it with the slot to be read. -/
theorem owned_removeAt
    {exchange : Exchange α}
    {position : Nat}
    {output : α}
    (found : exchange.objects[position]? = some output) :
    ((exchange.removeAt position output).1.owned).Perm exchange.owned := by
  unfold Exchange.removeAt
  split
  next swapQueue removed taken =>
      unfold remove at taken
      split at taken
      next => simp at taken
      next notEmpty =>
          obtain ⟨rfl, rfl⟩ := Prod.mk.inj (Option.some.inj taken)
          exact perm_of_exchange _ found
  next => exact .refl _

/-- No call loses or duplicates an object. -/
theorem owned_step
    {source target : Exchange α}
    {call : Call α}
    (taken : Exchange.step source call target) :
    target.owned.Perm source.owned := by
  cases call with
  | insert position input accepted =>
      obtain ⟨found, performed⟩ := taken
      have kept := owned_insertAt found
      rw [performed] at kept
      exact kept
  | remove position output removed =>
      obtain ⟨found, performed⟩ := taken
      have kept := owned_removeAt found
      rw [performed] at kept
      exact kept
  | clear =>
      obtain rfl := taken
      exact .refl _

/-- Every call is a call of the abstract queue. -/
theorem fifo_step
    {source target : Exchange α}
    {call : Call α}
    (taken : Exchange.step source call target) :
    BoundedFifo.step source.swapQueue.queue.length
      source.swapQueue.contents call.event target.swapQueue.contents := by
  cases call with
  | insert position input accepted =>
      obtain ⟨-, performed⟩ := taken
      unfold Exchange.insertAt at performed
      split at performed
      next swapQueue returned inserted =>
          obtain ⟨rfl, rfl⟩ := Prod.mk.inj performed
          exact ⟨lt_of_insert inserted, contents_insert inserted⟩
      next refused =>
          obtain ⟨rfl, rfl⟩ := Prod.mk.inj performed
          refine ⟨?_, rfl⟩
          rw [length_contents, numElements_of_insert_none refused]
          exact Nat.lt_irrefl _
  | remove position output removed =>
      obtain ⟨-, performed⟩ := taken
      unfold Exchange.removeAt at performed
      split at performed
      next swapQueue removed taken =>
          obtain ⟨rfl, rfl⟩ := Prod.mk.inj performed
          exact contents_remove taken
      next refused =>
          obtain ⟨rfl, rfl⟩ := Prod.mk.inj performed
          exact ⟨contents_of_remove_none refused, rfl⟩
  | clear =>
      obtain rfl := taken
      exact contents_clear source.swapQueue

/-- The vector keeps its size. -/
theorem size_step
    {source target : Exchange α}
    {call : Call α}
    (taken : Exchange.step source call target) :
    target.swapQueue.queue.length = source.swapQueue.queue.length := by
  cases call with
  | insert position input accepted =>
      obtain ⟨-, performed⟩ := taken
      unfold Exchange.insertAt at performed
      split at performed
      next swapQueue returned inserted =>
          obtain ⟨rfl, -⟩ := Prod.mk.inj performed
          exact length_insert inserted
      next =>
          obtain ⟨rfl, -⟩ := Prod.mk.inj performed
          rfl
  | remove position output removed =>
      obtain ⟨-, performed⟩ := taken
      unfold Exchange.removeAt at performed
      split at performed
      next swapQueue removed taken =>
          obtain ⟨rfl, -⟩ := Prod.mk.inj performed
          exact length_remove taken
      next =>
          obtain ⟨rfl, -⟩ := Prod.mk.inj performed
          rfl
  | clear =>
      obtain rfl := taken
      rfl

/-- A call that fails changes neither the queue nor the caller's object. -/
theorem unchanged_of_failed
    {source target : Exchange α}
    {call : Call α}
    (taken : Exchange.step source call target)
    (failed : call.Failed) :
    target = source := by
  cases call with
  | insert position input accepted =>
      obtain rfl : accepted = false := failed
      obtain ⟨-, performed⟩ := taken
      unfold Exchange.insertAt at performed
      split at performed
      next => cases (Prod.mk.inj performed).2
      next => exact (Prod.mk.inj performed).1.symm
  | remove position output removed =>
      obtain rfl : removed = none := failed
      obtain ⟨-, performed⟩ := taken
      unfold Exchange.removeAt at performed
      split at performed
      next => cases (Prod.mk.inj performed).2
      next => exact (Prod.mk.inj performed).1.symm
  | clear => exact failed.elim

/-- After a remove the caller's object is the removed one. -/
theorem object_of_removed
    {source target : Exchange α}
    {position : Nat}
    {output removed : α}
    (taken : Exchange.step source (.remove position output (some removed)) target) :
    target.objects[position]? = some removed := by
  obtain ⟨found, performed⟩ := taken
  obtain ⟨inRange, -⟩ := List.getElem?_eq_some_iff.mp found
  unfold Exchange.removeAt at performed
  split at performed
  next swapQueue first taken =>
      obtain ⟨rfl, same⟩ := Prod.mk.inj performed
      obtain rfl := Option.some.inj same
      exact List.getElem?_set_self inRange
  next => cases (Prod.mk.inj performed).2

/-- The distance of the two indices is the number of elements, modulo the size. -/
theorem index_distance (swapQueue : SwapQueue α) :
    (swapQueue.nextWriteIndex : Int) - swapQueue.nextReadIndex ≡
      swapQueue.numElements [ZMOD swapQueue.queue.length] := by
  rw [swapQueue.writeFollowsRead, Int.natCast_mod, Nat.cast_add]
  have reduced :=
    (Int.mod_modEq
      ((swapQueue.nextReadIndex : Int) + swapQueue.numElements)
      swapQueue.queue.length).sub_right swapQueue.nextReadIndex
  rwa [add_sub_cancel_left] at reduced

/--
Over any run from a new queue of any size: what the callers see is a bounded FIFO
of that size, a call that fails changes nothing, a remove leaves the removed element
with its caller, all objects together are a permutation of those at the start, and
the indices are as far apart as there are elements, modulo the size.
-/
theorem run_boundedFifo
    {size : Nat}
    {prototype : α}
    {objects : List α}
    {moves : List (Move (Exchange α) (Call α))}
    {final : Exchange α}
    (path : Path Exchange.step (.start size prototype objects) moves final) :
    Path (BoundedFifo.step size) [] (moves.map observe)
        final.swapQueue.contents ∧
      (∀ move ∈ moves, move.label.Failed → move.target = move.source) ∧
      (∀ move ∈ moves, ∀ position output removed,
        move.label = .remove position output (some removed) →
          move.target.objects[position]? = some removed) ∧
      final.owned.Perm (List.replicate size prototype ++ objects) ∧
      (final.swapQueue.nextWriteIndex : Int) -
          final.swapQueue.nextReadIndex ≡
        final.swapQueue.numElements [ZMOD size] := by
  have fifo :
      Path (BoundedFifo.step size)
        (Exchange.start size prototype objects).swapQueue.contents
        (moves.map observe) final.swapQueue.contents :=
    path.simulation
      (fun exchange => exchange.swapQueue.queue.length = size)
      (fun exchange => exchange.swapQueue.contents) Call.event
      (fun same taken => by
        rw [← same]
        exact ⟨size_step taken, fifo_step taken⟩)
      List.length_replicate
  obtain ⟨-, sized⟩ :=
    path.invariant
      (fun exchange => exchange.swapQueue.queue.length = size)
      (fun same taken => (size_step taken).trans same)
      List.length_replicate
  obtain ⟨-, permuted⟩ :=
    path.invariant
      (fun exchange =>
        exchange.owned.Perm (List.replicate size prototype ++ objects))
      (fun kept taken => (owned_step taken).trans kept)
      (.refl _)
  refine ⟨?fifo, ?failed, ?removed, permuted, ?indices⟩
  case fifo =>
      rw [Exchange.start, contents_create] at fifo
      exact fifo
  case failed =>
      intro move member failed
      exact unchanged_of_failed (path.step_of_mem member) failed
  case removed =>
      intro move member position output removed called
      have taken := path.step_of_mem member
      rw [called] at taken
      exact object_of_removed taken
  case indices =>
      rw [← sized]
      exact index_distance final.swapQueue

/-- A queue of two slots: two inserts fill it, a third is refused. -/
theorem run_boundedFifo_full :
    let start : Exchange Nat := .start 2 0 [1, 2]
    let one := (start.insertAt 0 1).1
    let full := (one.insertAt 1 2).1
    let last := (full.removeAt 0 0).1
    let moves : List (Move (Exchange Nat) (Call Nat)) :=
      [⟨start, .insert 0 1 true, one⟩, ⟨one, .insert 1 2 true, full⟩,
        ⟨full, .insert 0 0 false, full⟩,
        ⟨full, .remove 0 0 (some 1), last⟩]
    Path Exchange.step start moves last ∧
      Path (BoundedFifo.step 2) [] (moves.map observe)
        last.swapQueue.contents := by
  intro start one full last moves
  have path : Path Exchange.step start moves last :=
    .cons _ ⟨rfl, rfl⟩ (.cons _ ⟨rfl, rfl⟩
      (.cons _ ⟨rfl, rfl⟩ (.single ⟨rfl, rfl⟩)))
  exact ⟨path, (run_boundedFifo path).1⟩

end ApmSdk.SwapQueue
