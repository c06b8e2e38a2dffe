import Mathlib.Data.List.Basic
import Mathlib.Tactic.Common

namespace ApmSdk

/-!
# Finite paths of labelled transition systems

A path is recorded as the list of its moves, each with both of its endpoints,
so that properties of reached states and conditions on taken steps are stated
over the same list.  The rules below reduce a property of every state of a
path to one step.  Nothing here depends on a particular system.
-/

/-- One transition of a path, together with both of its endpoints. -/
structure Move (State Label : Type*) where
  source : State
  label : Label
  target : State

/-- A move, seen through an abstraction of its states and of its label. -/
def Move.observe
    {State Label AbstractState AbstractLabel : Type*}
    (state : State → AbstractState)
    (label : Label → AbstractLabel)
    (move : Move State Label) : Move AbstractState AbstractLabel :=
  ⟨state move.source, label move.label, state move.target⟩

/-- A finite path of a labelled step relation, with the moves it takes. -/
inductive Path
    {State Label : Type*}
    (step : State → Label → State → Prop) :
    State → List (Move State Label) → State → Prop where
  | nil (state : State) :
      Path step state [] state
  | cons
      {initial middle final : State}
      (label : Label)
      {rest : List (Move State Label)}
      (first : step initial label middle)
      (later : Path step middle rest final) :
      Path step initial (⟨initial, label, middle⟩ :: rest) final

/-- The step relation of a partial transition function. -/
def stepOf
    {State Label : Type*}
    (next : State → Label → Option State)
    (source : State)
    (label : Label)
    (target : State) : Prop :=
  next source label = some target

instance
    {State Label : Type*}
    [DecidableEq State]
    (next : State → Label → Option State)
    (source : State)
    (label : Label)
    (target : State) :
    Decidable (stepOf next source label target) :=
  inferInstanceAs (Decidable (_ = _))

namespace Path

variable {State Label : Type*}
variable {step : State → Label → State → Prop}
variable {initial middle final : State}
variable {moves leading trailing : List (Move State Label)}

/-- A single step is a path of one move. -/
theorem single
    {label : Label}
    (taken : step initial label final) :
    Path step initial [⟨initial, label, final⟩] final :=
  .cons label taken (.nil final)

/-- Taking labels one after another by a transition function is a path. -/
theorem exists_of_foldlM
    {next : State → Label → Option State}
    {labels : List Label}
    (taken : labels.foldlM next initial = some final) :
    ∃ moves,
      Path (stepOf next) initial moves final ∧
        moves.map Move.label = labels := by
  induction labels generalizing initial with
  | nil =>
      obtain rfl : initial = final := by
        simpa using taken
      exact ⟨[], .nil initial, rfl⟩
  | cons label rest inductionHypothesis =>
      rw [List.foldlM_cons, Option.bind_eq_bind,
        Option.bind_eq_some_iff] at taken
      obtain ⟨middle, step, restTaken⟩ := taken
      obtain ⟨moves, path, labels⟩ := inductionHypothesis restTaken
      exact ⟨⟨initial, label, middle⟩ :: moves,
        .cons label step path, by simp [labels]⟩

/-- Concatenate two paths whose boundary states agree. -/
theorem append
    (first : Path step initial leading middle)
    (later : Path step middle trailing final) :
    Path step initial (leading ++ trailing) final := by
  induction first with
  | nil state =>
      simpa using later
  | cons label head tail inductionHypothesis =>
      exact .cons label head (inductionHypothesis later)

/-- Cut a path at any position of its move list. -/
theorem split
    (path : Path step initial (leading ++ trailing) final) :
    ∃ between,
      Path step initial leading between ∧
        Path step between trailing final := by
  induction leading generalizing initial with
  | nil =>
      exact ⟨initial, .nil initial, path⟩
  | cons move rest inductionHypothesis =>
      cases path with
      | cons label head tail =>
          obtain ⟨between, earlier, later⟩ :=
            inductionHypothesis tail
          exact ⟨between, .cons label head earlier, later⟩

/-- Every move of a path is a step of the system. -/
theorem step_of_mem
    (path : Path step initial moves final)
    {move : Move State Label}
    (member : move ∈ moves) :
    step move.source move.label move.target := by
  induction path with
  | nil state =>
      simp at member
  | cons label head tail inductionHypothesis =>
      rcases List.mem_cons.mp member with isHead | inTail
      · subst isHead
        exact head
      · exact inductionHypothesis inTail

/-- The final state is the initial one or the target of a move. -/
theorem holds_final
    {holds : State → Prop}
    (path : Path step initial moves final)
    (start : holds initial)
    (targets : ∀ move ∈ moves, holds move.target) :
    holds final := by
  induction path with
  | nil state =>
      exact start
  | cons label head tail inductionHypothesis =>
      rw [List.forall_mem_cons] at targets
      exact inductionHypothesis targets.1 targets.2

/--
The guarded invariant rule: a property that one step preserves whenever its
guard holds is true at both ends of every move of a path whose moves all
satisfy the guard, and at its final state.
-/
theorem invariant_of_guard
    (holds : State → Prop)
    (guard : State → Label → Prop)
    (preserved :
      ∀ {source label target},
        holds source →
        guard source label →
        step source label target →
        holds target)
    (start : holds initial)
    (path : Path step initial moves final)
    (guarded : ∀ move ∈ moves, guard move.source move.label) :
    (∀ move ∈ moves, holds move.source ∧ holds move.target) ∧
      holds final := by
  induction path with
  | nil state =>
      exact ⟨by simp, start⟩
  | @cons first second last label rest head tail inductionHypothesis =>
      have next : holds second :=
        preserved start (guarded _ (List.mem_cons_self ..)) head
      obtain ⟨restHolds, lastHolds⟩ :=
        inductionHypothesis next
          (fun move member =>
            guarded move (List.mem_cons_of_mem _ member))
      refine ⟨?_, lastHolds⟩
      intro move member
      rcases List.mem_cons.mp member with isHead | inTail
      · subst isHead
        exact ⟨start, next⟩
      · exact restHolds move inTail

/-- The plain invariant rule is the guarded one with a trivial guard. -/
theorem invariant
    (holds : State → Prop)
    (preserved :
      ∀ {source label target},
        holds source →
        step source label target →
        holds target)
    (start : holds initial)
    (path : Path step initial moves final) :
    (∀ move ∈ moves, holds move.source ∧ holds move.target) ∧
      holds final :=
  invariant_of_guard holds (fun _ _ => True)
    (fun source _ taken => preserved source taken)
    start path (fun _ _ => trivial)

/--
When a guard decides exactly whether one step keeps a property, it also
decides whether every state reached along a path has the property.
-/
theorem forall_target_iff_forall_guard
    (holds : State → Prop)
    (guard : State → Label → Prop)
    (decided :
      ∀ {source label target},
        holds source →
        step source label target →
        (holds target ↔ guard source label))
    (start : holds initial)
    (path : Path step initial moves final) :
    (∀ move ∈ moves, holds move.target) ↔
      ∀ move ∈ moves, guard move.source move.label := by
  induction path with
  | nil state =>
      simp
  | @cons first second last label rest head tail inductionHypothesis =>
      have headDecided := decided start head
      simp only [List.forall_mem_cons]
      constructor
      · rintro ⟨next, later⟩
        exact ⟨headDecided.mp next,
          (inductionHypothesis next).mp later⟩
      · rintro ⟨clean, later⟩
        have next := headDecided.mpr clean
        exact ⟨next, (inductionHypothesis next).mpr later⟩

/--
When a guard decides exactly whether a step is good from a state with a property, and
guarded steps keep the property, it also decides whether all steps of a path are good.
-/
theorem forall_move_iff_forall_guard
    (holds : State → Prop)
    (good : State → Label → State → Prop)
    (guard : State → Label → Prop)
    (decided :
      ∀ {source label target},
        holds source →
        step source label target →
        (good source label target ↔ guard source label))
    (kept :
      ∀ {source label target},
        holds source →
        guard source label →
        step source label target →
        holds target)
    (start : holds initial)
    (path : Path step initial moves final) :
    (∀ move ∈ moves, good move.source move.label move.target) ↔
      ∀ move ∈ moves, guard move.source move.label := by
  induction path with
  | nil state =>
      simp
  | @cons first second last label rest head tail inductionHypothesis =>
      have headDecided := decided start head
      simp only [List.forall_mem_cons]
      constructor
      · rintro ⟨here, later⟩
        have guarded := headDecided.mp here
        exact ⟨guarded,
          (inductionHypothesis (kept start guarded head)).mp later⟩
      · rintro ⟨guarded, later⟩
        exact ⟨headDecided.mpr guarded,
          (inductionHypothesis (kept start guarded head)).mpr later⟩

/--
The simulation rule: when every step from a state with a preserved property is,
through an abstraction, a step of another system, every path is a path of it.
-/
theorem simulation
    {AbstractState AbstractLabel : Type*}
    {abstractStep : AbstractState → AbstractLabel → AbstractState → Prop}
    (holds : State → Prop)
    (state : State → AbstractState)
    (label : Label → AbstractLabel)
    (simulated :
      ∀ {source taken target},
        holds source →
        step source taken target →
        holds target ∧
          abstractStep (state source) (label taken) (state target))
    (start : holds initial)
    (path : Path step initial moves final) :
    Path abstractStep (state initial)
      (moves.map (Move.observe state label)) (state final) := by
  induction path with
  | nil first =>
      exact .nil (state first)
  | cons taken head tail inductionHypothesis =>
      obtain ⟨next, observed⟩ := simulated start head
      exact .cons (label taken) observed (inductionHypothesis next)

/--
The two-run rule: a relation between two runs that every guarded move of the first
carries over to a move of the second under the same label makes the second take
every path of the first, label by label.  Relation and guard may depend on the moves
taken so far.
-/
theorem twin
    (related : List (Move State Label) → State → State → Prop)
    (guard : List (Move State Label) → Move State Label → Prop)
    (carried :
      ∀ {past first label next second},
        related past first second →
        guard past ⟨first, label, next⟩ →
        step first label next →
        ∃ other,
          step second label other ∧
            related (past ++ [⟨first, label, next⟩]) next other)
    {past : List (Move State Label)}
    {second : State}
    (start : related past initial second)
    (path : Path step initial moves final)
    (guarded :
      ∀ earlier move later,
        moves = earlier ++ move :: later →
          guard (past ++ earlier) move) :
    ∃ others last,
      Path step second others last ∧
        others.map Move.label = moves.map Move.label ∧
          related (past ++ moves) final last := by
  induction path generalizing past second with
  | nil state =>
      exact ⟨[], second, .nil second, rfl, by simpa using start⟩
  | @cons first next last label rest head tail inductionHypothesis =>
      have headGuard := guarded [] ⟨first, label, next⟩ rest rfl
      rw [List.append_nil] at headGuard
      obtain ⟨other, otherHead, nextRelated⟩ :=
        carried start headGuard head
      obtain ⟨others, otherLast, otherTail, sameLabels, lastRelated⟩ :=
        inductionHypothesis nextRelated fun earlier move later shape => by
          have moveGuard :=
            guarded (⟨first, label, next⟩ :: earlier) move later
              (by rw [shape, List.cons_append])
          simpa using moveGuard
      exact ⟨⟨second, label, other⟩ :: others, otherLast,
        .cons label otherHead otherTail, by simp [sameLabels],
        by simpa using lastRelated⟩

end Path

/--
A property of every call of a run, the last of which need not return: it holds of the
call in the state it is made in, and of the rest from the state that it returns.
-/
def AlongRun
    {State Label : Type*}
    (next : State → Label → Option State)
    (holds : State → Label → Prop) :
    State → List Label → Prop
  | _, [] => True
  | state, label :: rest =>
      holds state label ∧
        ∀ target, next state label = some target →
          AlongRun next holds target rest

namespace AlongRun

variable {State Label : Type*}
variable {next : State → Label → Option State}
variable {holds guard : State → Label → Prop}

/-- A property of the labels alone holds along every run that takes them. -/
theorem of_forall
    {holds : Label → Prop}
    {labels : List Label}
    (each : ∀ label ∈ labels, holds label)
    (state : State) :
    AlongRun next (fun _ label => holds label) state labels := by
  induction labels generalizing state with
  | nil =>
      exact trivial
  | cons label rest inductionHypothesis =>
      rw [List.forall_mem_cons] at each
      exact ⟨each.1, fun target _ => inductionHypothesis each.2 target⟩

/-- Where calls that meet a guard keep an invariant and have a property under it, a run of
such calls has the property. -/
theorem of_guard
    (invariant : State → Prop)
    (kept :
      ∀ {state label target},
        invariant state →
        guard state label →
        next state label = some target →
        invariant target)
    (decided :
      ∀ {state label},
        invariant state →
        guard state label →
        holds state label)
    {state : State}
    {labels : List Label}
    (start : invariant state)
    (guarded : AlongRun next guard state labels) :
    AlongRun next holds state labels := by
  induction labels generalizing state with
  | nil =>
      exact guarded
  | cons label rest inductionHypothesis =>
      exact
        ⟨decided start guarded.1,
          fun target taken =>
            inductionHypothesis (kept start guarded.1 taken)
              (guarded.2 target taken)⟩

/-- A guard that decides a property of each call, and under which calls keep an invariant,
decides the property of all. -/
theorem iff_of_guard
    (invariant : State → Prop)
    (kept :
      ∀ {state label target},
        invariant state →
        guard state label →
        next state label = some target →
        invariant target)
    (decided :
      ∀ {state label},
        invariant state →
        (holds state label ↔ guard state label))
    {state : State}
    (start : invariant state)
    (labels : List Label) :
    AlongRun next holds state labels ↔ AlongRun next guard state labels := by
  induction labels generalizing state with
  | nil =>
      exact Iff.rfl
  | cons label rest inductionHypothesis =>
      unfold AlongRun
      rw [decided start]
      refine and_congr_right fun guarded => ?_
      exact
        forall_congr' fun target =>
          imp_congr_right fun taken =>
            inductionHypothesis (kept start guarded taken)

/-- Along a run that keeps an invariant, a guard that decides a property of each call
decides it of all. -/
theorem iff_of_invariant
    (invariant : State → Prop)
    (kept :
      ∀ {state label target},
        invariant state →
        next state label = some target →
        invariant target)
    (decided :
      ∀ {state label},
        invariant state →
        (holds state label ↔ guard state label))
    {state : State}
    (start : invariant state)
    (labels : List Label) :
    AlongRun next holds state labels ↔ AlongRun next guard state labels :=
  iff_of_guard invariant (fun sound _ taken => kept sound taken) decided start labels

/-- Where an invariant that every call keeps has the property, so has every run. -/
theorem of_invariant
    (invariant : State → Prop)
    (kept :
      ∀ {state label target},
        invariant state →
        next state label = some target →
        invariant target)
    (decided : ∀ {state label}, invariant state → holds state label)
    {state : State}
    (start : invariant state)
    (labels : List Label) :
    AlongRun next holds state labels :=
  of_guard invariant (fun sound _ taken => kept sound taken) (fun sound _ => decided sound)
    start (of_forall (fun _ _ => trivial) state)

/-- The last call of a run has the property in the state that the others reach. -/
theorem last
    {state target : State}
    {earlier : List Label}
    {label : Label}
    (along : AlongRun next holds state (earlier ++ [label]))
    (reached : earlier.foldlM next state = some target) :
    holds target label := by
  induction earlier generalizing state with
  | nil =>
      obtain rfl : state = target := by
        simpa using reached
      exact along.1
  | cons first rest inductionHypothesis =>
      rw [List.foldlM_cons, Option.bind_eq_bind,
        Option.bind_eq_some_iff] at reached
      obtain ⟨middle, taken, restReached⟩ := reached
      exact inductionHypothesis (along.2 middle taken) restReached

end AlongRun

end ApmSdk
