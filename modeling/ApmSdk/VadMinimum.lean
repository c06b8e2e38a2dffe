import ApmSdk.CIntegers
import ApmSdk.StoreLoops
import Mathlib.Data.Int.ConditionallyCompleteOrder
import Mathlib.Data.Int.Order.Basic
import Mathlib.Data.List.Induction
import Mathlib.Order.ConditionallyCompleteLattice.Basic
import Mathlib.Order.Fin.Basic

namespace ApmSdk.Vad

open StoreLoops

/-!
# The smallest features of the last frames

`WebRtcVad_FindMinimum` keeps 16 values of each channel with their ages.  The loops below run
on the entries from the first one of the channel on, those of the channels behind it
included, and have no value where one of them leaves these.
-/

/-- An entry of `low_value_vector` with the one of `index_vector`. -/
structure LowValue where
  value : Int
  age : Int
deriving Repr, DecidableEq, Inhabited

/-- What takes the place of a removed value. -/
def padding : LowValue :=
  ⟨10000, 101⟩

/-- The loop that shifts larger values downwards. -/
def shiftDown :
    (remaining j : Nat) → List LowValue → Option (List LowValue)
  | 0, _, memory => some memory
  | remaining + 1, j, memory => do
      let memory ← store memory j memory[j + 1]?
      shiftDown remaining (j + 1) memory

/-- A pass of the loop over the ages. -/
def updateEntry (memory : List LowValue) (i : Nat) : Option (List LowValue) := do
  let entry ← memory[i]?
  if entry.age ≠ 100 then
    store memory i (some { entry with age := int16 (entry.age + 1) })
  else do
    -- the entry that moves to `i` is neither aged nor checked in this call
    let memory ← shiftDown (16 - i) i memory
    store memory 15 (some padding)

/-- The loop over the ages. -/
def updateAges :
    (remaining i : Nat) → List LowValue → Option (List LowValue)
  | 0, _, memory => some memory
  | remaining + 1, i, memory => do
      let memory ← updateEntry memory i
      updateAges remaining (i + 1) memory

/-- The search for `position`. -/
def findPosition (smallestValues : Fin 16 → Int) (featureValue : Int) : Option Nat :=
  if featureValue < smallestValues 7 then
    if featureValue < smallestValues 3 then
      if featureValue < smallestValues 1 then
        if featureValue < smallestValues 0 then some 0 else some 1
      else if featureValue < smallestValues 2 then some 2
      else some 3
    else if featureValue < smallestValues 5 then
      if featureValue < smallestValues 4 then some 4 else some 5
    else if featureValue < smallestValues 6 then some 6
    else some 7
  else if featureValue < smallestValues 15 then
    if featureValue < smallestValues 11 then
      if featureValue < smallestValues 9 then
        if featureValue < smallestValues 8 then some 8 else some 9
      else if featureValue < smallestValues 10 then some 10
      else some 11
    else if featureValue < smallestValues 13 then
      if featureValue < smallestValues 12 then some 12 else some 13
    else if featureValue < smallestValues 14 then some 14
    else some 15
  else none

/-- The loop that shifts larger values up. -/
def shiftUp (position : Nat) :
    (i : Nat) → List LowValue → Option (List LowValue)
  | 0, memory => some memory
  | i + 1, memory =>
      if position < i + 1 then do
        let memory ← store memory (i + 1) memory[i]?
        shiftUp position i memory
      else some memory

/-- A new small value is inserted at a position. -/
def insertAt
    (featureValue : Int)
    (position : Nat)
    (memory : List LowValue) : Option (List LowValue) := do
  let memory ← shiftUp position 15 memory
  store memory position (some ⟨featureValue, 1⟩)

/-- The value at an index of the channel. -/
def valueAt (memory : List LowValue) (index : Fin 16) : Int :=
  (memory.getD index default).value

/-- The first half of `WebRtcVad_FindMinimum`, on the entries from the channel on. -/
def updateLowValues
    (featureValue : Int)
    (memory : List LowValue) : Option (List LowValue) := do
  let memory ← updateAges 16 0 memory
  match findPosition (valueAt memory) featureValue with
  | none => some memory
  | some position => insertAt featureValue position memory

/-- What `WebRtcVad_FindMinimum` uses of the instance. -/
structure LowValueInst where
  lowValues : List LowValue
  meanValue : List Int
  frameCounter : Int
deriving Repr, DecidableEq

/-- `kNumChannels` -/
abbrev kNumChannels : Nat :=
  6

/-- `kSmoothingDown`, in Q15. -/
def kSmoothingDown : Int :=
  6553

/-- `kSmoothingUp`, in Q15. -/
def kSmoothingUp : Int :=
  32439

/-- `current_median` -/
def currentMedian (frameCounter : Int) (memory : List LowValue) : Int :=
  if 2 < frameCounter then valueAt memory 2
  else if 0 < frameCounter then valueAt memory 0
  else 1600

/-- The median smoothed into a value of `mean_value`. -/
def smoothMedian (frameCounter median mean : Int) : Int :=
  let alpha :=
    if 0 < frameCounter then
      if median < mean then kSmoothingDown else kSmoothingUp
    else 0
  let tmp32 := int32 ((alpha + 1) * mean)
  let tmp32 := int32 (tmp32 + (32767 - alpha) * median)
  let tmp32 := int32 (tmp32 + 16384)
  int16 (tmp32 >>> (15 : Nat))

/-- `WebRtcVad_FindMinimum`: the value it returns and the instance behind it. -/
def findMinimum
    (inst : LowValueInst)
    (featureValue : Int)
    (channel : Fin kNumChannels) : Option (Int × LowValueInst) := do
  let offset := 16 * channel.val
  let memory ← updateLowValues featureValue (inst.lowValues.drop offset)
  let mean ← inst.meanValue[channel.val]?
  let mean := smoothMedian inst.frameCounter (currentMedian inst.frameCounter memory) mean
  return (mean,
    { inst with
      lowValues := inst.lowValues.take offset ++ memory
      meanValue := inst.meanValue.set channel mean })

/-- What `WebRtcVad_InitCore` stores. -/
def initLowValues : LowValueInst where
  lowValues := List.replicate (16 * kNumChannels) ⟨10000, 0⟩
  meanValue := List.replicate kNumChannels 1600
  frameCounter := 0

/-! ## The loop over the ages -/

/-- A store at the end of what is done. -/
theorem store_next
    {Value : Type*}
    {written rest : List Value}
    {old new : Value}
    {position : Nat}
    (isPosition : position = written.length) :
    store (written ++ old :: rest) position (some new) =
      some (written ++ new :: rest) := by
  subst isPosition
  rw [store, Option.bind_eq_bind, Option.bind_some, if_pos (by simp),
    List.set_append_right _ _ (Nat.le_refl _), Nat.sub_self, List.set_cons_zero]

/-- An entry that stays is a call older. -/
def LowValue.older (entry : LowValue) : LowValue :=
  { entry with age := entry.age + 1 }

/-- An entry has an age of a value that stays. -/
def LowValue.Stays (entry : LowValue) : Prop :=
  0 ≤ entry.age ∧ entry.age < 100

/-- A pass over an entry that is not removed counts the call. -/
theorem updateEntry_of_young
    {done rest : List LowValue}
    {entry : LowValue}
    (young : entry.age ≠ 100) :
    updateEntry (done ++ entry :: rest) done.length =
      some (done ++ { entry with age := int16 (entry.age + 1) } :: rest) := by
  have isEntry : (done ++ entry :: rest)[done.length]? = some entry := by
    simp
  rw [updateEntry, isEntry, Option.bind_eq_bind, Option.bind_some, if_pos young,
    store_next rfl]

/-- A pass over an entry that stays makes it older. -/
theorem updateEntry_of_stays
    {done rest : List LowValue}
    {entry : LowValue}
    (stays : entry.Stays) :
    updateEntry (done ++ entry :: rest) done.length =
      some (done ++ entry.older :: rest) := by
  obtain ⟨nonneg, young⟩ := stays
  have aged : int16 (entry.age + 1) = entry.age + 1 :=
    int16_of_bounds (by omega) (by omega)
  rw [updateEntry_of_young (by omega), aged]
  rfl

/-- Where all entries of the channel stay, the loop makes each of them older and leaves those
of the other channels. -/
theorem updateAges_of_stays
    {done block rest : List LowValue}
    (stays : ∀ entry ∈ block, entry.Stays) :
    updateAges block.length done.length (done ++ (block ++ rest)) =
      some (done ++ (block.map LowValue.older ++ rest)) := by
  induction block generalizing done with
  | nil =>
      rfl
  | cons entry block inductionHypothesis =>
      rw [List.forall_mem_cons] at stays
      have next := @inductionHypothesis (done ++ [entry.older]) stays.2
      rw [List.length_append, List.length_singleton, List.append_assoc,
        List.append_assoc, List.singleton_append, List.singleton_append] at next
      rw [List.length_cons, updateAges, List.cons_append,
        updateEntry_of_stays stays.1]
      exact next

/-- The loop that shifts downwards reads an entry behind the channel. -/
theorem shiftDown_eq_none
    {memory : List LowValue}
    {remaining j : Nat}
    (isLength : memory.length = j + remaining)
    (nonempty : 0 < remaining) :
    shiftDown remaining j memory = none := by
  induction remaining generalizing j memory with
  | zero =>
      exact absurd nonempty (Nat.lt_irrefl 0)
  | succ remaining inductionHypothesis =>
      rw [shiftDown]
      cases stored : store memory j memory[j + 1]? with
      | none =>
          rfl
      | some next =>
          have sameLength := length_of_store stored
          cases remaining with
          | zero =>
              have behind : memory[j + 1]? = none :=
                List.getElem?_eq_none (by omega)
              rw [behind] at stored
              contradiction
          | succ remaining =>
              exact inductionHypothesis (by omega) (Nat.succ_pos _)

/-- A pass over an entry that is 100 calls old leaves the channel. -/
theorem updateEntry_of_expired
    {done rest : List LowValue}
    {entry : LowValue}
    (isLength : (done ++ entry :: rest).length = 16)
    (expired : entry.age = 100) :
    updateEntry (done ++ entry :: rest) done.length = none := by
  have isEntry : (done ++ entry :: rest)[done.length]? = some entry := by
    simp
  have inside : done.length < 16 := by
    rw [← isLength]
    simp
  have leaves :
      shiftDown (16 - done.length) done.length (done ++ entry :: rest) = none :=
    shiftDown_eq_none (by omega) (by omega)
  rw [updateEntry, isEntry, Option.bind_eq_bind, Option.bind_some,
    if_neg (not_not.mpr expired), leaves]
  rfl

/-- The loop leaves the channel where an entry is 100 calls old. -/
theorem updateAges_of_expired
    {done block : List LowValue}
    (isLength : (done ++ block).length = 16)
    (ages : ∀ entry ∈ block, 0 ≤ entry.age ∧ entry.age ≤ 100)
    (expired : ∃ entry ∈ block, entry.age = 100) :
    updateAges block.length done.length (done ++ block) = none := by
  induction block generalizing done with
  | nil =>
      simp at expired
  | cons entry block inductionHypothesis =>
      rw [List.forall_mem_cons] at ages
      obtain ⟨⟨nonneg, old⟩, later⟩ := ages
      by_cases isExpired : entry.age = 100
      · rw [List.length_cons, updateAges,
          updateEntry_of_expired isLength isExpired]
        rfl
      · obtain ⟨other, member, otherExpired⟩ := expired
        have inBlock : other ∈ block := by
          rcases List.mem_cons.mp member with rfl | inBlock
          · exact absurd otherExpired isExpired
          · exact inBlock
        have next :=
          @inductionHypothesis (done ++ [entry.older])
            (by simpa using isLength) later ⟨other, inBlock, otherExpired⟩
        rw [List.length_append, List.length_singleton, List.append_assoc,
          List.singleton_append] at next
        rw [List.length_cons, updateAges,
          updateEntry_of_stays ⟨nonneg, by omega⟩]
        exact next

/-! ## The search and the insertion -/

/-- A position has all values that are not larger in front of it. -/
structure Separates
    (smallestValues : Fin 16 → Int)
    (featureValue : Int)
    (position : Nat) : Prop where
  front : ∀ index : Fin 16, index < position → smallestValues index ≤ featureValue
  behind : ∀ index : Fin 16, position ≤ index → featureValue < smallestValues index

theorem separates_of_neighbours
    {smallestValues : Fin 16 → Int}
    {featureValue : Int}
    (sorted : Monotone smallestValues)
    (last next : Fin 16)
    (neighbours : last.val + 1 = next.val)
    (notBelow : ¬ featureValue < smallestValues last)
    (below : featureValue < smallestValues next) :
    Separates smallestValues featureValue next := by
  constructor
  · intro index inFront
    exact Int.le_trans (sorted (by omega)) (Int.not_lt.mp notBelow)
  · intro index isBehind
    exact Int.lt_of_lt_of_le below (sorted isBehind)

theorem separates_first
    {smallestValues : Fin 16 → Int}
    {featureValue : Int}
    (sorted : Monotone smallestValues)
    (below : featureValue < smallestValues 0) :
    Separates smallestValues featureValue 0 :=
  ⟨fun _ inFront => absurd inFront (Nat.not_lt_zero _),
    fun index _ => Int.lt_of_lt_of_le below (sorted (Fin.zero_le index))⟩

theorem separates_none
    {smallestValues : Fin 16 → Int}
    {featureValue : Int}
    (sorted : Monotone smallestValues)
    (notBelow : ¬ featureValue < smallestValues 15) :
    Separates smallestValues featureValue 16 :=
  ⟨fun index _ => Int.le_trans (sorted (Fin.le_last index)) (Int.not_lt.mp notBelow),
    fun index isBehind => absurd index.isLt (Nat.not_lt.mpr isBehind)⟩

/-- The search finds the position between the values that are not larger and the larger ones,
if there are such. -/
theorem findPosition_spec
    {smallestValues : Fin 16 → Int}
    (sorted : Monotone smallestValues)
    (featureValue : Int) :
    Separates smallestValues featureValue
        ((findPosition smallestValues featureValue).getD 16) ∧
      ∀ position ∈ findPosition smallestValues featureValue, position < 16 := by
  have between := @separates_of_neighbours _ featureValue sorted
  unfold findPosition
  split_ifs <;> refine ⟨?_, by simp⟩
  · exact separates_first sorted ‹_›
  · exact between 0 1 rfl ‹_› ‹_›
  · exact between 1 2 rfl ‹_› ‹_›
  · exact between 2 3 rfl ‹_› ‹_›
  · exact between 3 4 rfl ‹_› ‹_›
  · exact between 4 5 rfl ‹_› ‹_›
  · exact between 5 6 rfl ‹_› ‹_›
  · exact between 6 7 rfl ‹_› ‹_›
  · exact between 7 8 rfl ‹_› ‹_›
  · exact between 8 9 rfl ‹_› ‹_›
  · exact between 9 10 rfl ‹_› ‹_›
  · exact between 10 11 rfl ‹_› ‹_›
  · exact between 11 12 rfl ‹_› ‹_›
  · exact between 12 13 rfl ‹_› ‹_›
  · exact between 13 14 rfl ‹_› ‹_›
  · exact between 14 15 rfl ‹_› ‹_›
  · exact separates_none sorted ‹_›

/-- The values from a position on move up by one, over the last of them, and the new value
takes the position. -/
theorem insert_eq
    {front moved rest : List LowValue}
    {last : LowValue}
    {new : LowValue} :
    (do
      let memory ←
        shiftUp front.length (front.length + moved.length)
          (front ++ (moved ++ last :: rest))
      store memory front.length (some new)) =
      some (front ++ new :: (moved ++ rest)) := by
  induction moved using List.reverseRecOn generalizing last rest with
  | nil =>
      have stops :
          shiftUp front.length front.length (front ++ last :: rest) =
            some (front ++ last :: rest) := by
        cases front.length with
        | zero =>
            rfl
        | succ position =>
            rw [shiftUp, if_neg (Nat.lt_irrefl _)]
      rw [List.length_nil, Nat.add_zero, List.nil_append, List.nil_append, stops]
      exact store_next rfl
  | append_singleton moved entry inductionHypothesis =>
      have read :
          (front ++ (moved ++ [entry] ++ last :: rest))[front.length +
              moved.length]? =
            some entry := by
        simp
      have stored :
          store (front ++ (moved ++ [entry] ++ last :: rest))
              (front.length + moved.length + 1) (some entry) =
            some (front ++ (moved ++ entry :: entry :: rest)) := by
        have next :=
          @store_next _ (front ++ moved ++ [entry]) rest last entry
            (front.length + moved.length + 1) (by simp; omega)
        simpa using next
      have step :
          shiftUp front.length (front.length + (moved ++ [entry]).length)
              (front ++ (moved ++ [entry] ++ last :: rest)) =
            shiftUp front.length (front.length + moved.length)
              (front ++ (moved ++ entry :: entry :: rest)) := by
        rw [List.length_append, List.length_singleton, ← Nat.add_assoc, shiftUp,
          if_pos (by omega), read, stored]
        rfl
      rw [step, inductionHypothesis, List.append_assoc, List.singleton_append]

/-- An insertion into the entries of a channel, from its list of 16. -/
theorem insertAt_eq
    {front moved rest : List LowValue}
    {last : LowValue}
    (isLength : front.length + moved.length = 15)
    (featureValue : Int) :
    insertAt featureValue front.length (front ++ (moved ++ last :: rest)) =
      some (front ++ ⟨featureValue, 1⟩ :: (moved ++ rest)) := by
  rw [insertAt, ← isLength]
  exact insert_eq

end ApmSdk.Vad
