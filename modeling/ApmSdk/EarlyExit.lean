import Mathlib.Data.List.Basic
import Mathlib.Data.List.Forall2
import Mathlib.Tactic.Common

namespace ApmSdk

/-!
# Calls that stop at their first failure

A call is a list of stages over one state, and a stage that reports an exit
keeps the later stages from running: what the earlier ones did stays done.
A loop over slots is the same thing with one stage for each slot.  Nothing here
depends on what the stages do.
-/

/-- A step of a call: it changes the state and may ask the call to stop. -/
abbrev Stage (State Exit : Type*) :=
  State → State × Option Exit

section Stages

variable {State Exit : Type*}

/-- A call with data of the caller, taken apart by how it ends. -/
theorem eq_of_exit
    {Data : Type*}
    {ran : (State × Data) × Exit}
    {exit : Exit}
    (ends : ran.2 = exit) :
    ran = ((ran.1.1, ran.1.2), exit) := by
  rw [← ends]

/-- Run stages in order, up to and including the first one that stops. -/
def runStages : List (Stage State Exit) → Stage State Exit
  | [], state => (state, none)
  | stage :: rest, state =>
      match stage state with
      | (stopped, some exit) => (stopped, some exit)
      | (next, none) => runStages rest next

@[simp]
theorem runStages_nil (state : State) :
    runStages ([] : List (Stage State Exit)) state = (state, none) :=
  rfl

theorem runStages_cons_of_none
    {stage : Stage State Exit}
    {rest : List (Stage State Exit)}
    {state : State}
    (passed : (stage state).2 = none) :
    runStages (stage :: rest) state = runStages rest (stage state).1 := by
  rw [runStages]
  split
  next stopped exit ran =>
      simp [ran] at passed
  next next ran =>
      rw [ran]

theorem runStages_cons_of_some
    {stage : Stage State Exit}
    {rest : List (Stage State Exit)}
    {state : State}
    {exit : Exit}
    (stopped : (stage state).2 = some exit) :
    runStages (stage :: rest) state = stage state := by
  rw [runStages]
  split
  next ran =>
      exact ran.symm
  next ran =>
      simp [ran] at stopped

/-- A call that completes has completed its first stage and the rest. -/
theorem completed_cons
    {stage : Stage State Exit}
    {rest : List (Stage State Exit)}
    {state final : State}
    (completed : runStages (stage :: rest) state = (final, none)) :
    (stage state).2 = none ∧
      runStages rest (stage state).1 = (final, none) := by
  cases outcome : (stage state).2 with
  | none =>
      rw [runStages_cons_of_none outcome] at completed
      exact ⟨rfl, completed⟩
  | some exit =>
      rw [runStages_cons_of_some outcome] at completed
      simp [completed] at outcome

/-- A call that stops is stopped by its first stage or by the rest. -/
theorem stopped_cons
    {stage : Stage State Exit}
    {rest : List (Stage State Exit)}
    {state final : State}
    {exit : Exit}
    (stopped : runStages (stage :: rest) state = (final, some exit)) :
    stage state = (final, some exit) ∨
      (stage state).2 = none ∧
        runStages rest (stage state).1 = (final, some exit) := by
  cases outcome : (stage state).2 with
  | none =>
      rw [runStages_cons_of_none outcome] at stopped
      exact .inr ⟨rfl, stopped⟩
  | some other =>
      rw [runStages_cons_of_some outcome] at stopped
      exact .inl stopped

/-- What every stage preserves, the whole call preserves. -/
theorem runStages_invariant
    (holds : State → Prop)
    {stages : List (Stage State Exit)}
    (preserved :
      ∀ stage ∈ stages, ∀ state : State,
        holds state → holds (stage state).1)
    {state : State}
    (start : holds state) :
    holds (runStages stages state).1 := by
  induction stages generalizing state with
  | nil =>
      exact start
  | cons stage rest inductionHypothesis =>
      rw [List.forall_mem_cons] at preserved
      have next := preserved.1 state start
      cases outcome : (stage state).2 with
      | none =>
          rw [runStages_cons_of_none outcome]
          exact inductionHypothesis preserved.2 next
      | some exit =>
          rw [runStages_cons_of_some outcome]
          exact next

/-- A part of the state that no stage touches is the same after the call. -/
theorem runStages_frame
    {View : Type*}
    (view : State → View)
    {stages : List (Stage State Exit)}
    (untouched :
      ∀ stage ∈ stages, ∀ state : State,
        view (stage state).1 = view state)
    (state : State) :
    view (runStages stages state).1 = view state :=
  runStages_invariant (fun reached => view reached = view state)
    (fun stage member reached same =>
      (untouched stage member reached).trans same)
    rfl

/-- What relates the states around every stage relates those around the call. -/
theorem runStages_related
    (related : State → State → Prop)
    (unchanged : ∀ state : State, related state state)
    (composed :
      ∀ {first second third : State},
        related first second → related second third → related first third)
    {stages : List (Stage State Exit)}
    (each :
      ∀ stage ∈ stages, ∀ state : State, related state (stage state).1)
    (state : State) :
    related state (runStages stages state).1 :=
  runStages_invariant (fun reached => related state reached)
    (fun stage member reached earlier =>
      composed earlier (each stage member reached))
    (unchanged state)

/--
A call does not complete when one of its stages never passes from states with a
property that all of its stages preserve.
-/
theorem not_completed_of_blocked
    (holds : State → Prop)
    {stages : List (Stage State Exit)}
    (preserved :
      ∀ stage ∈ stages, ∀ state : State,
        holds state → holds (stage state).1)
    {blocking : Stage State Exit}
    (member : blocking ∈ stages)
    (blocked : ∀ state : State, holds state → (blocking state).2 ≠ none)
    {state : State}
    (start : holds state) :
    (runStages stages state).2 ≠ none := by
  induction stages generalizing state with
  | nil =>
      simp at member
  | cons stage rest inductionHypothesis =>
      rw [List.forall_mem_cons] at preserved
      cases outcome : (stage state).2 with
      | none =>
          rw [runStages_cons_of_none outcome]
          rcases List.mem_cons.mp member with isHead | inTail
          · subst isHead
            exact absurd outcome (blocked state start)
          · exact
              inductionHypothesis preserved.2 inTail
                (preserved.1 state start)
      | some exit =>
          rw [runStages_cons_of_some outcome, outcome]
          exact Option.some_ne_none exit

/--
What one stage gives when it passes, and every stage preserves, holds after a
call that completes.
-/
theorem holds_of_completed
    (holds : State → Prop)
    {stages : List (Stage State Exit)}
    (preserved :
      ∀ stage ∈ stages, ∀ state : State,
        holds state → holds (stage state).1)
    {giving : Stage State Exit}
    (member : giving ∈ stages)
    (gives :
      ∀ state : State, (giving state).2 = none → holds (giving state).1)
    {state : State}
    (completed : (runStages stages state).2 = none) :
    holds (runStages stages state).1 := by
  induction stages generalizing state with
  | nil =>
      simp at member
  | cons stage rest inductionHypothesis =>
      rw [List.forall_mem_cons] at preserved
      cases outcome : (stage state).2 with
      | none =>
          rw [runStages_cons_of_none outcome] at completed ⊢
          rcases List.mem_cons.mp member with isHead | inTail
          · subst isHead
            exact
              runStages_invariant holds preserved.2 (gives state outcome)
          · exact inductionHypothesis preserved.2 inTail completed
      | some exit =>
          rw [runStages_cons_of_some outcome, outcome] at completed
          cases completed

/--
A call that stops has completed the stages before one stage, which stopped it,
and none of the stages after that one.
-/
theorem exists_stage_of_stopped
    {stages : List (Stage State Exit)}
    {state final : State}
    {exit : Exit}
    (stopped : runStages stages state = (final, some exit)) :
    ∃ (before : List (Stage State Exit)) (stage : Stage State Exit)
        (after : List (Stage State Exit)) (reached : State),
      stages = before ++ stage :: after ∧
        runStages before state = (reached, none) ∧
        stage reached = (final, some exit) := by
  induction stages generalizing state with
  | nil =>
      simp at stopped
  | cons stage rest inductionHypothesis =>
      rcases stopped_cons stopped with first | ⟨passed, later⟩
      · exact ⟨[], stage, rest, state, rfl, rfl, first⟩
      · obtain ⟨before, failing, after, reached, shape, ran, fails⟩ :=
          inductionHypothesis later
        refine ⟨stage :: before, failing, after, reached, ?_, ?_, fails⟩
        · rw [shape, List.cons_append]
        · rw [runStages_cons_of_none passed, ran]

/-- Two calls after each other are one call when the first completes. -/
theorem runStages_append_of_none
    {before after : List (Stage State Exit)}
    {state reached : State}
    (passed : runStages before state = (reached, none)) :
    runStages (before ++ after) state = runStages after reached := by
  induction before generalizing state with
  | nil =>
      obtain ⟨rfl, -⟩ := Prod.mk.inj passed
      rfl
  | cons stage rest inductionHypothesis =>
      cases outcome : (stage state).2 with
      | none =>
          rw [runStages_cons_of_none outcome] at passed
          rw [List.cons_append, runStages_cons_of_none outcome]
          exact inductionHypothesis passed
      | some exit =>
          rw [runStages_cons_of_some outcome] at passed
          simp [passed] at outcome

/-- A call that stops takes the stages after it along. -/
theorem runStages_append_of_some
    {before after : List (Stage State Exit)}
    {state reached : State}
    {exit : Exit}
    (stopped : runStages before state = (reached, some exit)) :
    runStages (before ++ after) state = (reached, some exit) := by
  induction before generalizing state with
  | nil =>
      simp at stopped
  | cons stage rest inductionHypothesis =>
      cases outcome : (stage state).2 with
      | none =>
          rw [runStages_cons_of_none outcome] at stopped
          rw [List.cons_append, runStages_cons_of_none outcome]
          exact inductionHypothesis stopped
      | some other =>
          rw [runStages_cons_of_some outcome] at stopped
          rw [List.cons_append, runStages_cons_of_some outcome]
          exact stopped

/-- Stages that never stop in one way do not make a call stop in that way. -/
theorem runStages_ne_of_never
    {stages : List (Stage State Exit)}
    {exit : Exit}
    (never :
      ∀ stage ∈ stages, ∀ state : State, (stage state).2 ≠ some exit)
    (state : State) :
    (runStages stages state).2 ≠ some exit := by
  induction stages generalizing state with
  | nil =>
      simp
  | cons stage rest inductionHypothesis =>
      rw [List.forall_mem_cons] at never
      cases outcome : (stage state).2 with
      | none =>
          rw [runStages_cons_of_none outcome]
          exact inductionHypothesis never.2 _
      | some other =>
          rw [runStages_cons_of_some outcome]
          exact never.1 state

/--
A part of the state that one stage gives up only when it passes, and no stage
before it does, is the same when the call stops in a way in which the stages after
it never do.
-/
theorem frame_of_stopped
    {View : Type*}
    (view : State → View)
    {early late : List (Stage State Exit)}
    {pivot : Stage State Exit}
    {exit : Exit}
    (earlyKeeps :
      ∀ stage ∈ early, ∀ state : State, view (stage state).1 = view state)
    (pivotKeeps :
      ∀ state : State, (pivot state).2 ≠ none →
        view (pivot state).1 = view state)
    (never :
      ∀ stage ∈ late, ∀ state : State, (stage state).2 ≠ some exit)
    {state final : State}
    (stopped :
      runStages (early ++ pivot :: late) state = (final, some exit)) :
    view final = view state := by
  have leading := runStages_frame view earlyKeeps state
  obtain ⟨reached, outcome, ran⟩ :
      ∃ reached outcome, runStages early state = (reached, outcome) :=
    ⟨_, _, rfl⟩
  rw [ran] at leading
  cases outcome with
  | some other =>
      rw [runStages_append_of_some ran] at stopped
      rw [show final = reached from (congrArg Prod.fst stopped).symm]
      exact leading
  | none =>
      rw [runStages_append_of_none ran] at stopped
      rw [← leading]
      rcases stopped_cons stopped with turn | ⟨-, later⟩
      · have kept := pivotKeeps reached (by simp [turn])
        rw [turn] at kept
        exact kept
      · exact
          absurd (congrArg Prod.snd later) (runStages_ne_of_never never _)

/-- A call that completes has completed every one of its stages. -/
theorem exists_reached_of_completed
    {before after : List (Stage State Exit)}
    {stage : Stage State Exit}
    {state final : State}
    (completed :
      runStages (before ++ stage :: after) state = (final, none)) :
    ∃ reached : State,
      runStages before state = (reached, none) ∧
        (stage reached).2 = none ∧
        runStages after (stage reached).1 = (final, none) := by
  induction before generalizing state with
  | nil =>
      exact ⟨state, rfl, completed_cons completed⟩
  | cons first rest inductionHypothesis =>
      obtain ⟨passed, later⟩ := completed_cons completed
      rw [runStages_cons_of_none passed]
      exact inductionHypothesis later

end Stages

section Slots

variable {Slot Shared Exit : Type*}

/--
Visit `count` slots in order, each with the shared part of the state, up to the
first visit that stops.  A slot beyond the end of the list stops the loop with
`missing`.
-/
def forSlots
    (body : Nat → Stage (Slot × Shared) Exit)
    (missing : Exit) :
    Nat → Nat → Stage (List Slot × Shared) Exit
  | _, 0, state => (state, none)
  | _, _ + 1, ([], shared) => (([], shared), some missing)
  | index, count + 1, (slot :: rest, shared) =>
      match body index (slot, shared) with
      | ((visited, after), some exit) =>
          ((visited :: rest, after), some exit)
      | ((visited, after), none) =>
          let later :=
            forSlots body missing (index + 1) count (rest, after)
          ((visited :: later.1.1, later.1.2), later.2)

section Frames

variable (body : Nat → Stage (Slot × Shared) Exit)
variable (missing : Exit)

/-- How a visit changes its slot is how the loop changes every slot. -/
theorem forSlots_related
    (related : Slot → Slot → Prop)
    (unvisited : ∀ slot : Slot, related slot slot)
    (visits :
      ∀ (index : Nat) (slot : Slot) (shared : Shared),
        related slot (body index (slot, shared)).1.1)
    (index count : Nat)
    (slots : List Slot)
    (shared : Shared) :
    List.Forall₂ related slots
      (forSlots body missing index count (slots, shared)).1.1 := by
  have rest_unvisited :
      ∀ rest : List Slot, List.Forall₂ related rest rest :=
    fun rest => List.forall₂_same.mpr (fun slot _ => unvisited slot)
  induction count generalizing index slots shared with
  | zero =>
      exact rest_unvisited slots
  | succ count inductionHypothesis =>
      cases slots with
      | nil =>
          exact .nil
      | cons slot rest =>
          have head := visits index slot shared
          rw [forSlots]
          split
          next visited after exit ran =>
              rw [ran] at head
              exact .cons head (rest_unvisited rest)
          next visited after ran =>
              rw [ran] at head
              exact
                .cons head (inductionHypothesis (index + 1) rest after)

/-- A loop whose body keeps a view of the slot keeps it in every slot. -/
theorem forSlots_map
    {View : Type*}
    (view : Slot → View)
    (kept :
      ∀ (index : Nat) (slot : Slot) (shared : Shared),
        view (body index (slot, shared)).1.1 = view slot)
    (index count : Nat)
    (slots : List Slot)
    (shared : Shared) :
    (forSlots body missing index count (slots, shared)).1.1.map view =
      slots.map view := by
  generalize result :
    (forSlots body missing index count (slots, shared)).1.1 = visited
  have pairs :
      List.Forall₂ (fun before after => view after = view before)
        slots visited := by
    rw [← result]
    exact
      forSlots_related body missing
        (fun before after => view after = view before)
        (fun _ => rfl) kept index count slots shared
  clear result
  induction pairs with
  | nil =>
      rfl
  | cons head tail inductionHypothesis =>
      rw [List.map_cons, List.map_cons, head, inductionHypothesis]

/-- A loop leaves the number of slots as it was. -/
theorem length_forSlots
    (index count : Nat)
    (slots : List Slot)
    (shared : Shared) :
    (forSlots body missing index count (slots, shared)).1.1.length =
      slots.length := by
  have kept :=
    forSlots_map body missing (fun _ => ()) (fun _ _ _ => rfl)
      index count slots shared
  simpa using congrArg List.length kept

/-- What the body preserves of the shared state, the loop preserves. -/
theorem forSlots_shared
    (holds : Shared → Prop)
    (preserved :
      ∀ (index : Nat) (slot : Slot) (shared : Shared),
        holds shared → holds (body index (slot, shared)).1.2)
    (index count : Nat)
    (slots : List Slot)
    {shared : Shared}
    (start : holds shared) :
    holds (forSlots body missing index count (slots, shared)).1.2 := by
  induction count generalizing index slots shared with
  | zero =>
      exact start
  | succ count inductionHypothesis =>
      cases slots with
      | nil =>
          exact start
      | cons slot rest =>
          have next := preserved index slot shared start
          rw [forSlots]
          split
          next visited after exit ran =>
              rw [ran] at next
              exact next
          next visited after ran =>
              rw [ran] at next
              exact inductionHypothesis (index + 1) rest next

end Frames

variable {body : Nat → Stage (Slot × Shared) Exit}
variable {missing : Exit}

/-- After a loop that completes, every visited slot has what a visit gives. -/
theorem forSlots_completed
    (given : Slot → Prop)
    (gives :
      ∀ (index : Nat) (slot : Slot) (shared : Shared),
        (body index (slot, shared)).2 = none →
          given (body index (slot, shared)).1.1)
    {index count : Nat}
    {slots : List Slot}
    {shared : Shared}
    (completed :
      (forSlots body missing index count (slots, shared)).2 = none) :
    count ≤ slots.length ∧
      ∀ slot ∈
          (forSlots body missing index count (slots, shared)).1.1.take count,
        given slot := by
  induction count generalizing index slots shared with
  | zero =>
      simp
  | succ count inductionHypothesis =>
      cases slots with
      | nil =>
          simp [forSlots] at completed
      | cons slot rest =>
          have head := gives index slot shared
          rw [forSlots] at completed ⊢
          split at completed
          next visited after exit ran =>
              simp at completed
          next visited after ran =>
              simp only [ran] at head ⊢
              obtain ⟨enough, later⟩ := inductionHypothesis completed
              refine ⟨Nat.succ_le_succ enough, ?_⟩
              simp only [List.take_succ_cons, List.forall_mem_cons]
              exact ⟨head trivial, later⟩

/-- A loop over enough slots, each of which the body passes, completes. -/
theorem forSlots_passes
    (passable : Slot → Prop)
    (passes :
      ∀ (index : Nat) (slot : Slot) (shared : Shared),
        passable slot → (body index (slot, shared)).2 = none)
    {index count : Nat}
    {slots : List Slot}
    {shared : Shared}
    (enough : count ≤ slots.length)
    (all : ∀ slot ∈ slots.take count, passable slot) :
    (forSlots body missing index count (slots, shared)).2 = none := by
  induction count generalizing index slots shared with
  | zero =>
      rfl
  | succ count inductionHypothesis =>
      cases slots with
      | nil =>
          simp at enough
      | cons slot rest =>
          simp only [List.take_succ_cons, List.forall_mem_cons] at all
          have head := passes index slot shared all.1
          rw [forSlots]
          split
          next visited after exit ran =>
              simp [ran] at head
          next visited after ran =>
              exact inductionHypothesis (Nat.le_of_succ_le_succ enough) all.2

/-- A loop whose body looks at its slot alone ends as the first slot that stops it says. -/
theorem exit_forSlots
    (refusal : Slot → Option Exit)
    (decided :
      ∀ (index : Nat) (slot : Slot) (shared : Shared),
        (body index (slot, shared)).2 = refusal slot)
    (index count : Nat)
    (slots : List Slot)
    (shared : Shared) :
    (forSlots body missing index count (slots, shared)).2 =
      ((slots.take count).findSome? refusal).or
        (if slots.length < count then some missing else none) := by
  induction count generalizing index slots shared with
  | zero =>
      simp [forSlots]
  | succ count inductionHypothesis =>
      cases slots with
      | nil =>
          simp [forSlots]
      | cons slot rest =>
          have head := decided index slot shared
          rw [forSlots, List.take_succ_cons, List.findSome?_cons, ← head]
          split
          next visited after exit ran =>
              simp [ran]
          next visited after ran =>
              simp [ran, inductionHypothesis]

/--
What the body preserves of a slot and of the shared state together, the loop preserves
of every slot it may visit and of the shared state; it completes when no visit stops.
-/
theorem forSlots_invariant
    (good : Slot → Prop)
    (holds : Shared → Prop)
    {index count : Nat}
    (visits :
      ∀ (position : Nat) (slot : Slot) (shared : Shared),
        index ≤ position → position < index + count →
        good slot → holds shared →
          good (body position (slot, shared)).1.1 ∧
            holds (body position (slot, shared)).1.2)
    {slots : List Slot}
    {shared : Shared}
    (enough : count ≤ slots.length)
    (all : ∀ slot ∈ slots.take count, good slot)
    (start : holds shared) :
    (∀ slot ∈
        (forSlots body missing index count (slots, shared)).1.1.take count,
        good slot) ∧
      holds (forSlots body missing index count (slots, shared)).1.2 ∧
        ((∀ (position : Nat) (slot : Slot) (shared : Shared),
            index ≤ position → position < index + count →
            good slot → holds shared →
              (body position (slot, shared)).2 = none) →
          (forSlots body missing index count (slots, shared)).2 = none) := by
  induction count generalizing index slots shared with
  | zero =>
      exact ⟨by simp, start, fun _ => rfl⟩
  | succ count inductionHypothesis =>
      cases slots with
      | nil =>
          simp at enough
      | cons slot rest =>
          simp only [List.take_succ_cons, List.forall_mem_cons] at all
          have head :=
            visits index slot shared (Nat.le_refl _) (by omega) all.1 start
          rw [forSlots]
          split
          next visited after exit ran =>
              simp only [ran] at head
              simp only [List.take_succ_cons, List.forall_mem_cons]
              refine ⟨⟨head.1, all.2⟩, head.2, fun passes => ?_⟩
              have passed :=
                passes index slot shared (Nat.le_refl _) (by omega) all.1 start
              rw [ran] at passed
              cases passed
          next visited after ran =>
              simp only [ran] at head
              simp only [List.take_succ_cons, List.forall_mem_cons]
              have later :
                  ∀ (position : Nat) (slot : Slot) (shared : Shared),
                    index + 1 ≤ position → position < index + 1 + count →
                    good slot → holds shared →
                      good (body position (slot, shared)).1.1 ∧
                        holds (body position (slot, shared)).1.2 :=
                fun position slot shared first last =>
                  visits position slot shared (by omega) (by omega)
              obtain ⟨restGood, restHolds, restPasses⟩ :=
                inductionHypothesis later
                  (Nat.le_of_succ_le_succ enough) all.2 head.2
              exact ⟨⟨head.1, restGood⟩, restHolds, fun passes =>
                restPasses fun position slot shared first last =>
                  passes position slot shared (by omega) (by omega)⟩

end Slots

end ApmSdk
