import ApmSdk.LabelledPath
import Mathlib.Algebra.BigOperators.Group.List.Basic
import Mathlib.Algebra.Order.Ring.Int

namespace ApmSdk.Path

/-!
# Events that have to be earned

Some moves are only taken when enough has been counted since the last of them.  The count
need not be a part of the state: it is enough that a bound for it is kept.
-/

variable {State Label : Type*}
variable {step : State → Label → State → Prop}
variable {initial final : State}
variable {moves leading between trailing : List (Move State Label)}
variable {first second : Move State Label}

/-- What has been counted along a path is bounded by what its moves may count. -/
theorem within_final
    {holds : State → Prop}
    {within : State → Nat → Prop}
    {cost : Move State Label → Nat}
    (rises :
      ∀ {source label target count},
        holds source →
        step source label target →
        within source count →
        within target (count + cost ⟨source, label, target⟩))
    (held : ∀ move ∈ moves, holds move.source)
    (path : Path step initial moves final)
    {count : Nat}
    (start : within initial count) :
    within final (count + (moves.map cost).sum) := by
  induction path generalizing count with
  | nil state =>
      exact start
  | cons label head tail inductionHypothesis =>
      rw [List.forall_mem_cons] at held
      rw [List.map_cons, List.sum_cons, ← Nat.add_assoc]
      exact inductionHypothesis held.2 (rises held.1 head start)

/--
The spacing rule: when an event leaves nothing counted and another one needs enough to be
counted, with what its own move counts, enough is counted between any two.
-/
theorem spaced
    (holds : State → Prop)
    (within : State → Nat → Prop)
    (cost : Move State Label → Nat)
    (event : Move State Label → Prop)
    (enough : Nat)
    (rises :
      ∀ {source label target count},
        holds source →
        step source label target →
        within source count →
        within target (count + cost ⟨source, label, target⟩))
    (restarts :
      ∀ {source label target},
        holds source →
        step source label target →
        event ⟨source, label, target⟩ →
        within target 0)
    (needs :
      ∀ {source label target count},
        holds source →
        step source label target →
        event ⟨source, label, target⟩ →
        within source count →
        enough ≤ count + cost ⟨source, label, target⟩)
    (held : ∀ move ∈ moves, holds move.source)
    (path : Path step initial moves final)
    (shape : moves = leading ++ first :: (between ++ second :: trailing))
    (firstEvent : event first)
    (secondEvent : event second) :
    enough ≤ ((between ++ [second]).map cost).sum := by
  subst shape
  obtain ⟨middle, -, later⟩ := path.split
  cases later with
  | cons label head tail =>
      obtain ⟨reached, counted, rest⟩ := tail.split
      cases rest with
      | cons secondLabel secondHead _ =>
          have firstHeld := held _ (List.mem_append_right _ (List.mem_cons_self ..))
          have tailHeld :
              ∀ move ∈ between, holds move.source := fun move member =>
            held move
              (List.mem_append_right _
                (List.mem_cons_of_mem _ (List.mem_append_left _ member)))
          have secondHeld :=
            held _
              (List.mem_append_right _
                (List.mem_cons_of_mem _
                  (List.mem_append_right _ (List.mem_cons_self ..))))
          have earned :=
            needs secondHeld secondHead secondEvent
              (within_final rises tailHeld counted
                (restarts firstHeld head firstEvent))
          rw [List.map_append, List.sum_append]
          simpa using earned

end ApmSdk.Path
