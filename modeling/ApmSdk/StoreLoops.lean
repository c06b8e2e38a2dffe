import ApmSdk.CheckedComputation
import Mathlib.Data.List.Basic

namespace ApmSdk.StoreLoops

/-!
# Loops that store into an array

A loop stores one value for each item, at a position that the item has.  Where every value is
there and every position is inside, it returns the array with these values; else it has no
value.  Nothing here depends on what is stored.
-/

variable {Value Item : Type*}

/-- A store of a value, if there is one, at a position, if that is inside. -/
def store
    (array : List Value)
    (position : Nat)
    (value : Option Value) : Option (List Value) := do
  let value ← value
  if position < array.length then some (array.set position value) else none

/-- A loop of stores. -/
def storeAll
    (position : Item → Nat)
    (value : Item → Option Value)
    (array : List Value)
    (items : List Item) : Option (List Value) :=
  items.foldlM (fun array item => store array (position item) (value item))
    array

variable {position : Item → Nat}
variable {value : Item → Option Value}
variable {array next : List Value}
variable {items : List Item}

/-- A store keeps the length. -/
theorem length_of_store
    {at_ : Nat}
    {stored : Option Value}
    (isNext : store array at_ stored = some next) :
    next.length = array.length := by
  obtain ⟨value, rfl, isSet⟩ := Option.bind_eq_some_iff.mp isNext
  split at isSet
  next =>
      rw [← Option.some.inj isSet, List.length_set]
  next =>
      contradiction

/-- After a loop that stores the same value wherever it stores twice, each position has its
value, and what no item is for is unchanged. -/
theorem storeAll_eq
    (each :
      ∀ item ∈ items,
        position item < array.length ∧ (value item).isSome)
    (agree :
      ∀ first ∈ items, ∀ second ∈ items,
        position first = position second → value first = value second) :
    Returns (storeAll position value array items) fun next =>
      next.length = array.length ∧
        (∀ item ∈ items, next[position item]? = value item) ∧
        ∀ k, (∀ item ∈ items, position item ≠ k) → next[k]? = array[k]? := by
  induction items generalizing array with
  | nil =>
      exact Returns.pure ⟨rfl, by simp, fun _ _ => rfl⟩
  | cons item rest inductionHypothesis =>
      rw [List.forall_mem_cons] at each
      obtain ⟨⟨inside, isSome⟩, later⟩ := each
      obtain ⟨content, isValue⟩ := Option.isSome_iff_exists.mp isSome
      have stored :
          store array (position item) (value item) =
            some (array.set (position item) content) := by
        rw [store, isValue, Option.bind_eq_bind, Option.bind_some,
          if_pos inside]
      unfold storeAll at inductionHypothesis ⊢
      rw [List.foldlM_cons, stored]
      refine
        (inductionHypothesis (fun item member => ?_)
          fun first inRest second inRest' =>
            agree first (List.mem_cons_of_mem _ inRest) second
              (List.mem_cons_of_mem _ inRest')).imp
          fun next ⟨isLength, written, untouched⟩ => ⟨?_, ?_, ?_⟩
      · rw [List.length_set]
        exact later item member
      · rw [isLength, List.length_set]
      · rw [List.forall_mem_cons]
        refine ⟨?_, written⟩
        by_cases again : ∃ other ∈ rest, position other = position item
        · obtain ⟨other, member, same⟩ := again
          rw [← same, written other member]
          exact
            agree other (List.mem_cons_of_mem _ member) item
              (List.mem_cons_self ..) same
        · rw [untouched _ fun other member same =>
              again ⟨other, member, same⟩,
            List.getElem?_set_self inside, isValue]
      · intro k elsewhere
        rw [List.forall_mem_cons] at elsewhere
        rw [untouched k elsewhere.2, List.getElem?_set_ne elsewhere.1]

/-- A loop with an item that has no value, or a position outside, has no value. -/
theorem storeAll_of_mem
    {item : Item}
    (member : item ∈ items)
    (fails : value item = none ∨ array.length ≤ position item) :
    storeAll position value array items = none := by
  induction items generalizing array with
  | nil =>
      contradiction
  | cons first rest inductionHypothesis =>
      unfold storeAll at inductionHypothesis ⊢
      rw [List.foldlM_cons]
      cases isNext : store array (position first) (value first) with
      | none =>
          rfl
      | some next =>
          rw [← length_of_store isNext] at fails
          rcases List.mem_cons.mp member with rfl | inRest
          · exfalso
            obtain ⟨stored, isValue, isSet⟩ :=
              Option.bind_eq_some_iff.mp isNext
            rw [length_of_store isNext, isValue] at fails
            split at isSet
            next inside =>
                obtain isNone | outside := fails
                · contradiction
                · exact absurd inside (Nat.not_lt.mpr outside)
            next =>
                contradiction
          · exact inductionHypothesis inRest fails

end ApmSdk.StoreLoops
