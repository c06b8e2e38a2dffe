import Mathlib.Data.List.Basic
import Mathlib.Tactic.Common

namespace ApmSdk

/-!
# Bounded queues that can be rewound

A rewindable queue is a stream of everything that was ever written, with a read
position in it.  Reading moves the position forward.  It can also be moved back,
as far as the elements behind it are among the last ones that the capacity keeps.
-/

/-- The written stream, from the first element on, and where reading goes on. -/
structure RewindableFifo (α : Type*) (capacity : Nat) where
  written : List α
  position : Nat
  inStream : position ≤ written.length
  kept : written.length ≤ position + capacity
  filled : capacity ≤ written.length

namespace RewindableFifo

variable {α : Type*} {capacity : Nat}

/-- A queue that keeps the given elements, all of them read already. -/
def ofRead
    (elements : List α)
    (full : elements.length = capacity) : RewindableFifo α capacity where
  written := elements
  position := elements.length
  inStream := Nat.le_refl _
  kept := Nat.le_add_right _ _
  filled := Nat.le_of_eq full.symm

/-- What has been written and not been read. -/
def unread (fifo : RewindableFifo α capacity) : List α :=
  fifo.written.drop fifo.position

/-- How many elements can be read. -/
def readable (fifo : RewindableFifo α capacity) : Nat :=
  fifo.written.length - fifo.position

/-- How many can be written without losing one that has not been read. -/
def free (fifo : RewindableFifo α capacity) : Nat :=
  capacity - fifo.readable

theorem readable_le (fifo : RewindableFifo α capacity) :
    fifo.readable ≤ capacity :=
  Nat.sub_le_iff_le_add'.mpr fifo.kept

/-- Either an element is there to be read or its place is free. -/
theorem readable_add_free (fifo : RewindableFifo α capacity) :
    fifo.readable + fifo.free = capacity :=
  Nat.add_sub_cancel' fifo.readable_le

@[simp]
theorem length_unread (fifo : RewindableFifo α capacity) :
    fifo.unread.length = fifo.readable :=
  List.length_drop

/-- Append the elements for which there is room. -/
def write
    (fifo : RewindableFifo α capacity)
    (elements : List α) : RewindableFifo α capacity where
  written := fifo.written ++ elements.take fifo.free
  position := fifo.position
  inStream := by
    rw [List.length_append]
    exact Nat.le_add_right_of_le fifo.inStream
  kept := by
    have total := fifo.readable_add_free
    have inStream := fifo.inStream
    have fits := List.length_take_le fifo.free elements
    simp only [readable] at total
    rw [List.length_append]
    omega
  filled := by
    rw [List.length_append]
    exact Nat.le_add_right_of_le fifo.filled

/-- How far the position moves when it is asked to. -/
def reach (fifo : RewindableFifo α capacity) (distance : Int) : Int :=
  max (min distance fifo.readable) (-fifo.free)

/-- Where that leads is in the stream and among the kept elements. -/
theorem reach_inStream
    (fifo : RewindableFifo α capacity)
    (distance : Int) :
    0 ≤ fifo.position + fifo.reach distance ∧
      fifo.position + fifo.reach distance ≤ fifo.written.length ∧
      fifo.written.length ≤
        fifo.position + fifo.reach distance + capacity := by
  have total := fifo.readable_add_free
  have inStream := fifo.inStream
  have kept := fifo.kept
  have filled := fifo.filled
  unfold reach
  simp only [readable] at total ⊢
  omega

/-- Move the position, forward or back. -/
def move
    (fifo : RewindableFifo α capacity)
    (distance : Int) : RewindableFifo α capacity where
  written := fifo.written
  position := (fifo.position + fifo.reach distance).toNat
  inStream := by
    have bounds := fifo.reach_inStream distance
    omega
  kept := by
    have bounds := fifo.reach_inStream distance
    omega
  filled := fifo.filled

/-- Two distances that reach equally far are the same move. -/
theorem move_congr
    (fifo : RewindableFifo α capacity)
    {first second : Int}
    (same : fifo.reach first = fifo.reach second) :
    fifo.move first = fifo.move second := by
  unfold move
  simp only [same]

/-- The oldest unread elements, and the queue behind them. -/
def read
    (fifo : RewindableFifo α capacity)
    (count : Nat) : RewindableFifo α capacity × List α :=
  (fifo.move count, fifo.unread.take count)

/-- A move takes from what can be read, and gives back when it is backward. -/
theorem readable_move
    (fifo : RewindableFifo α capacity)
    (distance : Int) :
    ((fifo.move distance).readable : Int) =
      fifo.readable - fifo.reach distance := by
  have bounds := fifo.reach_inStream distance
  have inStream := fifo.inStream
  simp only [readable, move]
  omega

/-- Writing adds what fits. -/
theorem readable_write
    (fifo : RewindableFifo α capacity)
    (elements : List α) :
    (fifo.write elements).readable =
      fifo.readable + min fifo.free elements.length := by
  have inStream := fifo.inStream
  simp only [readable, write, List.length_append, List.length_take]
  omega

/--
Moving back over elements that have been read puts them before the unread ones
again, in their old order.
-/
theorem unread_move_back
    (fifo : RewindableFifo α capacity)
    (steps : Nat)
    (kept : steps ≤ fifo.free) :
    (fifo.move (-steps)).unread =
      (fifo.written.take fifo.position).drop (fifo.position - steps) ++
        fifo.unread := by
  have reached : fifo.reach (-steps) = -steps := by
    simp only [reach]
    omega
  have bounds := fifo.reach_inStream (-steps)
  have inStream := fifo.inStream
  rw [reached] at bounds
  have target :
      (fifo.position + fifo.reach (-steps)).toNat =
        fifo.position - steps := by
    rw [reached]
    omega
  have place :
      fifo.position - steps ≤ (fifo.written.take fifo.position).length := by
    rw [List.length_take]
    omega
  simp only [unread, move, target]
  rw [← List.drop_append_of_le_length place, List.take_append_drop]

/-! ## Runs -/

/-- What can be asked of a queue. -/
inductive Request (α : Type*) where
  | write (elements : List α)
  | read (count : Nat)
  | move (distance : Int)

/-- What it answers: how many were written, what was read, how far it moved. -/
inductive Answer (α : Type*) where
  | written (count : Nat)
  | read (count : Nat) (elements : List α)
  | moved (distance : Int)
  deriving Repr, DecidableEq

/-- Serve one request. -/
def serve
    (fifo : RewindableFifo α capacity) :
    Request α → RewindableFifo α capacity × Answer α
  | .write elements =>
      (fifo.write elements, .written (min fifo.free elements.length))
  | .read count =>
      ((fifo.read count).1,
        .read (min fifo.readable count) (fifo.read count).2)
  | .move distance => (fifo.move distance, .moved (fifo.reach distance))

/-- Serve requests one after another. -/
def serveAll
    (fifo : RewindableFifo α capacity) :
    List (Request α) → RewindableFifo α capacity × List (Answer α)
  | [] => (fifo, [])
  | request :: rest =>
      let served := fifo.serve request
      let later := served.1.serveAll rest
      (later.1, served.2 :: later.2)

end RewindableFifo

end ApmSdk
