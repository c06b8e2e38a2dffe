import ApmSdk.CheckedComputation
import ApmSdk.VadGaussians
import ApmSdk.VadMinimumRuns

namespace ApmSdk.Vad

open StoreLoops

/-!
# The range of the smallest features

With an entry behind those of the channel to read, `WebRtcVad_FindMinimum` always returns.  A
call removes at most every other feature, since the one behind a removed entry is passed over,
and the features of the calls before it are young.  So three features are left whenever the
third one is taken for the median.
-/

/-! ## The loop over the ages, with entries behind the channel -/

/-- What the loop over the ages makes of the entries of a channel: one that is 100 calls old is
removed, the one that moves to its place is passed over, and padding moves up. -/
inductive Ages : List LowValue → List LowValue → Prop where
  | done : Ages [] []
  | older
      {entry : LowValue}
      {rest aged : List LowValue}
      (stays : entry.age ≠ 100)
      (later : Ages rest aged) :
      Ages (entry :: rest) ({ entry with age := int16 (entry.age + 1) } :: aged)
  | removed
      {entry next : LowValue}
      {rest behind aged : List LowValue}
      (expired : entry.age = 100)
      (moved : rest ++ [padding] = next :: behind)
      (later : Ages behind aged) :
      Ages (entry :: rest) (next :: aged)

/-- The loop that shifts downwards, up to the first entry behind the channel. -/
theorem shiftDown_eq
    {done block rest : List LowValue}
    {entry first : LowValue} :
    shiftDown (block.length + 1) done.length (done ++ entry :: (block ++ first :: rest)) =
      some (done ++ (block ++ first :: first :: rest)) := by
  induction block generalizing done entry with
  | nil =>
      have read : (done ++ entry :: first :: rest)[done.length + 1]? = some first := by
        simp
      rw [List.length_nil, List.nil_append, shiftDown, read, store_next rfl]
      rfl
  | cons next block inductionHypothesis =>
      have read :
          (done ++ entry :: (next :: (block ++ first :: rest)))[done.length + 1]? =
            some next := by
        simp
      have later := @inductionHypothesis (done ++ [next]) next
      rw [List.length_append, List.length_singleton, List.append_assoc, List.append_assoc,
        List.singleton_append, List.singleton_append] at later
      rw [List.length_cons, List.cons_append, shiftDown, read, store_next rfl]
      exact later

/-- A pass over an entry that is 100 calls old. -/
theorem updateEntry_of_removed
    {done block rest : List LowValue}
    {entry : LowValue}
    (isLength : done.length + block.length = 15)
    (notLast : rest ≠ [])
    (expired : entry.age = 100) :
    updateEntry (done ++ (entry :: block ++ rest)) done.length =
      some (done ++ (block ++ [padding] ++ rest)) := by
  obtain ⟨first, others, rfl⟩ := List.exists_cons_of_ne_nil notLast
  have isEntry :
      (done ++ (entry :: block ++ first :: others))[done.length]? = some entry := by
    simp
  have shifted := @shiftDown_eq done block others entry first
  have remaining : 16 - done.length = block.length + 1 := by
    omega
  have stored :=
    @store_next _ (done ++ block) (first :: others) first padding 15 (by simp; omega)
  rw [List.append_assoc] at stored
  rw [updateEntry, isEntry, Option.bind_eq_bind, Option.bind_some,
    if_neg (not_not.mpr expired), remaining, List.cons_append, shifted, Option.bind_eq_bind,
    Option.bind_some, stored]
  simp

/-- The loop over the ages returns, and leaves the entries behind the channel. -/
theorem updateAges_ages
    {done block rest : List LowValue}
    (isLength : done.length + block.length = 16)
    (notLast : rest ≠ []) :
    ∃ aged,
      Ages block aged ∧
        updateAges block.length done.length (done ++ (block ++ rest)) =
          some (done ++ (aged ++ rest)) := by
  induction isRemaining : block.length generalizing done block with
  | zero =>
      obtain rfl := List.length_eq_zero_iff.mp isRemaining
      exact ⟨[], .done, rfl⟩
  | succ remaining inductionHypothesis =>
      obtain ⟨entry, block, rfl⟩ := List.exists_cons_of_length_eq_add_one isRemaining
      rw [List.length_cons] at isLength isRemaining
      -- The entry at this place is done, and so is the one that takes the place of a removed one.
      have onward :
          ∀ {next : LowValue} {behind : List LowValue},
            behind.length = remaining →
            updateEntry (done ++ (entry :: block ++ rest)) done.length =
              some (done ++ next :: (behind ++ rest)) →
            ∃ aged,
              Ages behind aged ∧
                updateAges (remaining + 1) done.length (done ++ (entry :: block ++ rest)) =
                  some (done ++ (next :: aged ++ rest)) := by
        intro next behind isBehind updated
        obtain ⟨aged, ages, later⟩ :=
          @inductionHypothesis (done ++ [next]) behind
            (by rw [List.length_append, List.length_singleton]; omega) isBehind
        rw [List.length_append, List.length_singleton, List.append_assoc, List.append_assoc,
          List.singleton_append, List.singleton_append] at later
        refine ⟨aged, ages, ?_⟩
        rw [updateAges, updated]
        exact later
      by_cases expired : entry.age = 100
      · have updated :=
          updateEntry_of_removed (show done.length + block.length = 15 by omega) notLast expired
        obtain ⟨next, behind, moved⟩ :=
          List.exists_cons_of_ne_nil (List.append_ne_nil_of_right_ne_nil block
            (List.cons_ne_nil padding []))
        have isBehind : behind.length = remaining := by
          have lengths := congrArg List.length moved
          rw [List.length_append, List.length_singleton, List.length_cons] at lengths
          omega
        rw [moved] at updated
        obtain ⟨aged, ages, returned⟩ := onward isBehind updated
        exact ⟨_, .removed expired moved ages, returned⟩
      · obtain ⟨aged, ages, returned⟩ :=
          onward (by omega) (updateEntry_of_young expired)
        exact ⟨_, .older expired ages, returned⟩

/-! ## Features among the entries -/

/-- Where what the head counts for carries over, counts of the tails do. -/
theorem countP_cons_mono
    {Item : Type*}
    {counted other : Item → Bool}
    {head otherHead : Item}
    {tail otherTail : List Item}
    (heads : counted head = true → other otherHead = true)
    (tails : tail.countP counted ≤ otherTail.countP other) :
    (head :: tail).countP counted ≤ (otherHead :: otherTail).countP other := by
  by_cases counts : counted head = true
  · rw [List.countP_cons_of_pos counts, List.countP_cons_of_pos (heads counts)]
    exact Nat.succ_le_succ tails
  · rw [List.countP_cons_of_neg counts, List.countP_cons]
    omega

/-- A value that a feature can have. -/
def LowValue.isReal (entry : LowValue) : Bool :=
  decide (entry.value ≤ 2053)

/-- A feature of one of the last calls. -/
def LowValue.isRecent (calls : Nat) (entry : LowValue) : Bool :=
  decide (entry.value ≤ 2053 ∧ 0 ≤ entry.age ∧ entry.age ≤ calls)

/-- Behind an entry that is no feature there are no features. -/
theorem countP_isReal_behind
    {entry : LowValue}
    {rest : List LowValue}
    (sorted : InOrder (entry :: rest))
    (notReal : ¬ entry.isReal = true) :
    rest.countP LowValue.isReal = 0 := by
  have above : 2053 < entry.value := Int.not_le.mp fun small => notReal (decide_eq_true small)
  rw [List.countP_eq_zero]
  intro other member isReal
  have least := (List.pairwise_cons.mp sorted).1 other member
  have notAbove : other.value ≤ 2053 := of_decide_eq_true isReal
  omega

/-- Padding at the end keeps the order. -/
theorem padded
    {entries : List LowValue}
    (sorted : InOrder entries)
    (small : ∀ entry ∈ entries, entry.value ≤ 10000) :
    InOrder (entries ++ [padding]) ∧
      ∀ entry ∈ entries ++ [padding], entry.value ≤ 10000 := by
  constructor
  · refine List.pairwise_append.mpr ⟨sorted, List.pairwise_singleton _ _, ?_⟩
    intro entry member other isPadding
    rw [List.mem_singleton.mp isPadding]
    exact small entry member
  · rw [List.forall_mem_append, List.forall_mem_singleton]
    exact ⟨small, le_rfl⟩

namespace Ages

variable {block aged : List LowValue}

theorem length (ages : Ages block aged) : aged.length = block.length := by
  induction ages with
  | done =>
      rfl
  | older stays later inductionHypothesis =>
      rw [List.length_cons, List.length_cons, inductionHypothesis]
  | removed expired moved later inductionHypothesis =>
      have lengths := congrArg List.length moved
      rw [List.length_append, List.length_singleton, List.length_cons] at lengths
      rw [List.length_cons, List.length_cons, inductionHypothesis]
      omega

/-- No values are made but those of the padding. -/
theorem value_mem
    (ages : Ages block aged)
    {holds : Int → Prop}
    (values : ∀ entry ∈ block, holds entry.value)
    (isPadding : holds 10000) :
    ∀ entry ∈ aged, holds entry.value := by
  induction ages with
  | done =>
      exact values
  | older stays later inductionHypothesis =>
      rw [List.forall_mem_cons] at values ⊢
      exact ⟨values.1, inductionHypothesis values.2⟩
  | @removed entry next rest behind aged expired moved later inductionHypothesis =>
      rw [List.forall_mem_cons] at values
      have moves : ∀ entry ∈ next :: behind, holds entry.value := by
        rw [← moved, List.forall_mem_append, List.forall_mem_singleton]
        exact ⟨values.2, isPadding⟩
      rw [List.forall_mem_cons] at moves ⊢
      exact ⟨moves.1, inductionHypothesis moves.2⟩

/-- The order is kept, as no value is above that of the padding. -/
theorem inOrder
    (ages : Ages block aged)
    (sorted : InOrder block)
    (small : ∀ entry ∈ block, entry.value ≤ 10000) :
    InOrder aged := by
  induction ages with
  | done =>
      exact sorted
  | @older entry rest aged stays later inductionHypothesis =>
      obtain ⟨least, restSorted⟩ := List.pairwise_cons.mp sorted
      rw [List.forall_mem_cons] at small
      exact
        List.pairwise_cons.mpr
          ⟨later.value_mem least small.1, inductionHypothesis restSorted small.2⟩
  | @removed entry next rest behind aged expired moved later inductionHypothesis =>
      rw [List.forall_mem_cons] at small
      obtain ⟨movedSorted, movedSmall⟩ :=
        padded (List.pairwise_cons.mp sorted).2 small.2
      rw [moved] at movedSorted movedSmall
      obtain ⟨least, behindSorted⟩ := List.pairwise_cons.mp movedSorted
      rw [List.forall_mem_cons] at movedSmall
      exact
        List.pairwise_cons.mpr
          ⟨later.value_mem least movedSmall.1, inductionHypothesis behindSorted movedSmall.2⟩

/-- Recent features stay, a call older at most. -/
theorem countP_isRecent
    (ages : Ages block aged)
    {calls : Nat}
    (young : calls < 99) :
    block.countP (LowValue.isRecent calls) ≤
      aged.countP (LowValue.isRecent (calls + 1)) := by
  induction ages with
  | done =>
      exact le_rfl
  | @older entry rest aged stays later inductionHypothesis =>
      have kept :
          entry.isRecent calls = true →
            LowValue.isRecent (calls + 1) { entry with age := int16 (entry.age + 1) } =
              true := by
        intro recent
        obtain ⟨isReal, nonneg, old⟩ := of_decide_eq_true recent
        have counted : int16 (entry.age + 1) = entry.age + 1 :=
          int16_of_bounds (by omega) (by omega)
        exact decide_eq_true ⟨isReal, by dsimp only; omega, by dsimp only; omega⟩
      exact countP_cons_mono kept inductionHypothesis
  | @removed entry next rest behind aged expired moved later inductionHypothesis =>
      have notRecent : ¬ entry.isRecent calls = true := by
        intro recent
        obtain ⟨-, -, old⟩ := of_decide_eq_true recent
        omega
      have kept : next.isRecent calls = true → next.isRecent (calls + 1) = true := by
        intro recent
        obtain ⟨isReal, nonneg, old⟩ := of_decide_eq_true recent
        exact decide_eq_true ⟨isReal, nonneg, by omega⟩
      have moves : rest.countP (LowValue.isRecent calls) ≤
          (next :: behind).countP (LowValue.isRecent calls) := by
        rw [← moved, List.countP_append]
        exact Nat.le_add_right _ _
      rw [List.countP_cons_of_neg notRecent]
      exact moves.trans (countP_cons_mono kept inductionHypothesis)

/-- At most every other feature is removed. -/
theorem countP_isReal
    (ages : Ages block aged)
    (sorted : InOrder block)
    (small : ∀ entry ∈ block, entry.value ≤ 10000) :
    block.countP LowValue.isReal ≤ 2 * aged.countP LowValue.isReal + 1 := by
  induction ages with
  | done =>
      exact Nat.zero_le _
  | @older entry rest aged stays later inductionHypothesis =>
      rw [List.forall_mem_cons] at small
      have restHalves := inductionHypothesis (List.pairwise_cons.mp sorted).2 small.2
      have same :
          LowValue.isReal { entry with age := int16 (entry.age + 1) } = entry.isReal := rfl
      rw [List.countP_cons, List.countP_cons, same]
      omega
  | @removed entry next rest behind aged expired moved later inductionHypothesis =>
      rw [List.forall_mem_cons] at small
      obtain ⟨movedSorted, movedSmall⟩ :=
        padded (List.pairwise_cons.mp sorted).2 small.2
      have moves : rest.countP LowValue.isReal = (next :: behind).countP LowValue.isReal := by
        rw [← moved, List.countP_append]
        rfl
      rw [moved] at movedSorted movedSmall
      rw [List.forall_mem_cons] at movedSmall
      have behindHalves :=
        inductionHypothesis (List.pairwise_cons.mp movedSorted).2 movedSmall.2
      rw [List.countP_cons] at moves ⊢
      rw [List.countP_cons]
      by_cases isReal : next.isReal = true
      · rw [if_pos isReal] at moves ⊢
        split <;> omega
      · have none_ := countP_isReal_behind movedSorted isReal
        rw [if_neg isReal] at moves ⊢
        split <;> omega

end Ages

/-! ## The insertion of a feature -/

/-- The 16 smallest of the entries and a feature. -/
def inserted (featureValue : Int) (aged : List LowValue) : List LowValue :=
  (aged.orderedInsert Smaller ⟨featureValue, 1⟩).take 16

section Inserted

variable {aged : List LowValue}

theorem length_inserted
    (isLength : aged.length = 16)
    (featureValue : Int) :
    (inserted featureValue aged).length = 16 := by
  rw [inserted, List.length_take, List.orderedInsert_length]
  omega

theorem inOrder_inserted
    (sorted : InOrder aged)
    (featureValue : Int) :
    InOrder (inserted featureValue aged) :=
  (inOrder_orderedInsert sorted _).sublist (List.take_sublist _ _)

theorem mem_inserted
    {featureValue : Int}
    {holds : Int → Prop}
    (values : ∀ entry ∈ aged, holds entry.value)
    (isFeature : holds featureValue) :
    ∀ entry ∈ inserted featureValue aged, holds entry.value := by
  intro entry member
  rcases (List.mem_orderedInsert _).mp (List.mem_of_mem_take member) with rfl | old
  · exact isFeature
  · exact values entry old

/-- Either all 16 entries are features, or the last one gives way to the new feature. -/
theorem countP_inserted
    (isLength : aged.length = 16)
    (sorted : InOrder aged)
    (featureValue : Int) :
    (inserted featureValue aged).countP LowValue.isReal = 16 ∨
      ∀ counted : LowValue → Bool,
        (∀ entry, counted entry = true → entry.isReal = true) →
        (inserted featureValue aged).countP counted =
          (⟨featureValue, 1⟩ :: aged : List LowValue).countP counted := by
  have isInserted := inOrder_orderedInsert sorted ⟨featureValue, 1⟩
  have sameCount := (List.perm_orderedInsert Smaller ⟨featureValue, 1⟩ aged).countP_eq
  have seventeen := List.orderedInsert_length Smaller aged ⟨featureValue, 1⟩
  unfold inserted
  generalize aged.orderedInsert Smaller ⟨featureValue, 1⟩ = entries at *
  obtain ⟨last, isLast⟩ : ∃ last, entries.drop 16 = [last] :=
    List.length_eq_one_iff.mp (by rw [List.length_drop]; omega)
  have shape : entries = entries.take 16 ++ [last] := by
    rw [← isLast, List.take_append_drop]
  by_cases isReal : last.isReal = true
  · left
    have all : ∀ entry ∈ entries.take 16, entry.isReal = true := by
      intro entry member
      rw [shape] at isInserted
      have notAbove :=
        (List.pairwise_append.mp isInserted).2.2 entry member last (List.mem_singleton_self _)
      have small : last.value ≤ 2053 := of_decide_eq_true isReal
      exact decide_eq_true (notAbove.trans small)
    rw [List.countP_eq_length.mpr all, List.length_take]
    omega
  · right
    intro counted onlyReal
    have notCounted : ¬ counted last = true := fun counts => isReal (onlyReal last counts)
    rw [← sameCount, shape, List.take_append_of_le_length (by rw [List.length_take]; omega),
      List.take_take, List.countP_append, List.countP_singleton, if_neg notCounted]
    rfl

end Inserted

/-! ## What a call keeps -/

/-- How many features are left at least, after this many calls since all 16 were features. -/
def leastReal (calls : Nat) : Nat :=
  [16, 9, 5].getD calls 3

/-- There are 16 entries in order, and features enough: those of the last calls, and half of what
the calls before them have left. -/
structure EntriesKept (frameCounter : Int) (block : List LowValue) : Prop where
  isLength : block.length = 16
  sorted : InOrder block
  range : ∀ entry ∈ block, 176 ≤ entry.value ∧ entry.value ≤ 10000
  enough :
    ∃ calls ≤ 3,
      (∀ since ≤ calls, since ≤ block.countP (LowValue.isRecent since)) ∧
        (leastReal calls ≤ block.countP LowValue.isReal ∨ frameCounter = calls)

/-- Half of the features and a new one. -/
theorem leastReal_succ : ∀ calls < 3, 2 * leastReal (calls + 1) ≤ leastReal calls + 2 := by
  decide

theorem isReal_of_isRecent
    {calls : Nat}
    (entry : LowValue)
    (recent : entry.isRecent calls = true) :
    entry.isReal = true :=
  decide_eq_true (of_decide_eq_true recent).1

theorem countP_isRecent_le
    (calls : Nat)
    (entries : List LowValue) :
    entries.countP (LowValue.isRecent calls) ≤ entries.countP LowValue.isReal :=
  List.countP_mono_left fun entry _ => isReal_of_isRecent entry

section Step

variable {frameCounter : Int}
variable {block aged : List LowValue}
variable {featureValue : Int}

/-- Where the last entry gives way, there is one call more. -/
theorem enough_of_counts
    (kept : EntriesKept frameCounter block)
    (ages : Ages block aged)
    (isFeature : IsFeature featureValue)
    (counts :
      ∀ counted : LowValue → Bool,
        (∀ entry, counted entry = true → entry.isReal = true) →
        (inserted featureValue aged).countP counted =
          (⟨featureValue, 1⟩ :: aged : List LowValue).countP counted) :
    ∃ calls ≤ 3,
      (∀ since ≤ calls,
        since ≤ (inserted featureValue aged).countP (LowValue.isRecent since)) ∧
        (leastReal calls ≤ (inserted featureValue aged).countP LowValue.isReal ∨
          frameCounter + 1 = calls) := by
  obtain ⟨calls, few, recent, enough⟩ := kept.enough
  have halves :=
    ages.countP_isReal kept.sorted fun entry member => (kept.range entry member).2
  have oneMore :
      (inserted featureValue aged).countP LowValue.isReal =
        aged.countP LowValue.isReal + 1 := by
    rw [counts LowValue.isReal fun _ => id]
    exact List.countP_cons_of_pos (decide_eq_true isFeature.2)
  have recentMore :
      ∀ since ≤ calls,
        since + 1 ≤ (inserted featureValue aged).countP (LowValue.isRecent (since + 1)) := by
    intro since notAbove
    have isRecent : LowValue.isRecent (since + 1) ⟨featureValue, 1⟩ = true :=
      decide_eq_true ⟨isFeature.2, Int.one_nonneg, by dsimp only; omega⟩
    have before := recent since notAbove
    have stays := ages.countP_isRecent (show since < 99 by omega)
    rw [counts _ isReal_of_isRecent, List.countP_cons_of_pos isRecent]
    omega
  have recents :
      ∀ since ≤ min (calls + 1) 3,
        since ≤ (inserted featureValue aged).countP (LowValue.isRecent since) := by
    intro since notAbove
    cases since with
    | zero =>
        exact Nat.zero_le _
    | succ since =>
        exact recentMore since (by omega)
  refine ⟨min (calls + 1) 3, Nat.min_le_right _ _, recents, ?_⟩
  rcases Nat.lt_or_ge calls 3 with below | reached
  · rw [Nat.min_eq_left (show calls + 1 ≤ 3 from below)]
    rcases enough with many | started
    · left
      have half := leastReal_succ calls below
      omega
    · right
      rw [started]
      push_cast
      rfl
  · left
    rw [Nat.min_eq_right (show 3 ≤ calls + 1 by omega)]
    exact
      (recents 3 (by omega)).trans (countP_isRecent_le 3 (inserted featureValue aged))

/-- A call keeps 16 entries with features enough. -/
theorem entriesKept_inserted
    (kept : EntriesKept frameCounter block)
    (ages : Ages block aged)
    (isFeature : IsFeature featureValue) :
    EntriesKept (frameCounter + 1) (inserted featureValue aged) := by
  have small : ∀ entry ∈ block, entry.value ≤ 10000 :=
    fun entry member => (kept.range entry member).2
  have isLength := ages.length.trans kept.isLength
  have sorted := ages.inOrder kept.sorted small
  have range : ∀ entry ∈ aged, 176 ≤ entry.value ∧ entry.value ≤ 10000 :=
    @Ages.value_mem _ _ ages (fun value => 176 ≤ value ∧ value ≤ 10000) kept.range (by decide)
  refine
    ⟨length_inserted isLength _, inOrder_inserted sorted _,
      @mem_inserted _ _ (fun value => 176 ≤ value ∧ value ≤ 10000) range
        ⟨isFeature.1, isFeature.2.trans (by decide)⟩, ?_⟩
  rcases countP_inserted isLength sorted featureValue with all | counts
  · exact
      ⟨0, by decide, fun since none_ => none_.trans (Nat.zero_le _),
        .inl (by rw [all]; decide)⟩
  · exact enough_of_counts kept ages isFeature counts

end Step

/-! ## The smoothed median -/

/-- Features enough reach up to an index. -/
theorem value_le_of_countP
    {block : List LowValue}
    (sorted : InOrder block)
    {index : Nat}
    (inside : index < block.length)
    (enough : index < block.countP LowValue.isReal) :
    block[index].value ≤ 2053 := by
  by_contra above
  have notReal : ¬ (block[index]).isReal = true :=
    fun isReal => above (of_decide_eq_true isReal)
  have behind := sorted.sublist (List.drop_sublist index block)
  rw [List.drop_eq_getElem_cons inside] at behind
  have none_ := countP_isReal_behind behind notReal
  have front := @List.countP_le_length _ LowValue.isReal (block.take index)
  rw [List.length_take] at front
  rw [← List.take_append_drop index block, List.countP_append,
    List.drop_eq_getElem_cons inside, List.countP_cons_of_neg notReal, none_] at enough
  omega

/-- The median is a feature: the third one is taken from the fourth call on. -/
theorem currentMedian_isFeature
    {frameCounter : Int}
    {block : List LowValue}
    (kept : EntriesKept (frameCounter + 1) block)
    (rest : List LowValue) :
    IsFeature (currentMedian frameCounter (block ++ rest)) := by
  obtain ⟨calls, few, recent, enough⟩ := kept.enough
  have least : ∀ calls ≤ 3, 3 ≤ leastReal calls := by
    decide
  have notMore := (recent calls le_rfl).trans (countP_isRecent_le calls block)
  have started := least calls few
  have valueIn :
      ∀ index : Fin 16, index.val < block.countP LowValue.isReal →
        IsFeature (valueAt (block ++ rest) index) := by
    intro index reached
    obtain ⟨inside, isValue⟩ := valueAt_append kept.isLength rest index
    rw [isValue]
    exact
      ⟨(kept.range _ (List.getElem_mem inside)).1,
        value_le_of_countP kept.sorted inside reached⟩
  unfold currentMedian
  split
  next later =>
      exact valueIn 2 (show 2 < _ by omega)
  next =>
      split
      next second =>
          exact valueIn 0 (show 0 < _ by omega)
      next =>
          exact ⟨by decide, by decide⟩

/-- A weighted mean in Q15 of two features. -/
theorem isFeature_weighted
    {mean median weight other : Int}
    (isMean : IsFeature mean)
    (isMedian : IsFeature median)
    (nonneg : 0 ≤ weight ∧ 0 ≤ other)
    (whole : weight + other = 2 ^ 15) :
    IsFeature
      (int16 (int32 (int32 (int32 (weight * mean) + other * median) + 16384) >>> (15 : Nat))) := by
  have meanLow := mul_le_mul_of_nonneg_left isMean.1 nonneg.1
  have meanHigh := mul_le_mul_of_nonneg_left isMean.2 nonneg.1
  have medianLow := mul_le_mul_of_nonneg_left isMedian.1 nonneg.2
  have medianHigh := mul_le_mul_of_nonneg_left isMedian.2 nonneg.2
  generalize weight * mean = first at *
  generalize other * median = second at *
  rw [@int32_of_bounds first (by omega) (by omega),
    @int32_of_bounds (first + second) (by omega) (by omega),
    int32_of_bounds (by omega) (by omega), Int.shiftRight_eq_div_pow,
    int16_of_bounds (by omega) (by omega)]
  constructor <;> omega

/-- Smoothing stays between the median and the mean. -/
theorem smoothMedian_isFeature
    {median mean : Int}
    (isMedian : IsFeature median)
    (isMean : IsFeature mean)
    (frameCounter : Int) :
    IsFeature (smoothMedian frameCounter median mean) := by
  have alpha :
      ∀ first median_ : Prop, ∀ [Decidable first] [Decidable median_],
        let alpha := if first then if median_ then kSmoothingDown else kSmoothingUp else 0
        0 ≤ alpha ∧ alpha ≤ 32767 := by
    intro first median_ _ _
    dsimp only
    split
    · split <;> decide
    · decide
  have range := alpha (0 < frameCounter) (median < mean)
  exact isFeature_weighted isMean isMedian (by omega) (by omega)

/-! ## A call on the instance -/

namespace LowValueInst

/-- The entries of each channel are kept for so many calls, the smoothed medians are features,
and there is an entry behind the last channel. -/
structure Kept (counted : Fin kNumChannels → Int) (inst : LowValueInst) : Prop where
  isLength : 16 * kNumChannels < inst.lowValues.length
  means : inst.meanValue.length = kNumChannels
  smoothed : ∀ mean ∈ inst.meanValue, IsFeature mean
  entries : ∀ channel, EntriesKept (counted channel) (inst.block channel)

variable {inst : LowValueInst}
variable {counted : Fin kNumChannels → Int}
variable {channel : Fin kNumChannels}

/-- What a call makes of the entries from its channel on. -/
theorem Kept.updateLowValues
    (kept : inst.Kept counted)
    (channel : Fin kNumChannels)
    (featureValue : Int) :
    ∃ aged,
      Ages (inst.block channel) aged ∧
        Vad.updateLowValues featureValue (inst.lowValues.drop (16 * channel)) =
          some
            (inserted featureValue aged ++ inst.lowValues.drop (16 * channel + 16)) := by
  obtain ⟨isLength, sorted, range, -⟩ := kept.entries channel
  have inside := end_le channel
  have enough := kept.isLength
  have notLast : inst.lowValues.drop (16 * channel + 16) ≠ [] := by
    rw [Ne, List.drop_eq_nil_iff]
    omega
  obtain ⟨aged, ages, returned⟩ :=
    @updateAges_ages [] (inst.block channel) _ (by rw [isLength]; rfl) notLast
  rw [isLength] at returned
  refine ⟨aged, ages, ?_⟩
  rw [lowValues_eq]
  exact
    updateLowValues_of_ages (ages.length.trans isLength)
      (ages.inOrder sorted fun entry member => (range entry member).2) returned featureValue

/-- The instance with other entries and another smoothed median of a channel. -/
def stored
    (inst : LowValueInst)
    (channel : Fin kNumChannels)
    (entries : List LowValue)
    (mean : Int) : LowValueInst :=
  { inst with
    lowValues :=
      inst.lowValues.take (16 * channel) ++
        (entries ++ inst.lowValues.drop (16 * channel + 16))
    meanValue := inst.meanValue.set channel mean }

theorem length_stored
    (isLength : 16 * kNumChannels ≤ inst.lowValues.length)
    {entries : List LowValue}
    (sixteen : entries.length = 16)
    (channel : Fin kNumChannels)
    (mean : Int) :
    (inst.stored channel entries mean).lowValues.length = inst.lowValues.length := by
  have inside := end_le channel
  simp only [stored, List.length_append, List.length_take, List.length_drop, sixteen]
  omega

/-- Storing what a call keeps counts for its channel. -/
theorem Kept.stored
    (kept : inst.Kept counted)
    {entries : List LowValue}
    {count mean : Int}
    (after : EntriesKept count entries)
    (isMean : IsFeature mean) :
    (inst.stored channel entries mean).Kept (Function.update counted channel count) := by
  have enough := kept.isLength
  obtain ⟨isBlock, others⟩ :=
    @block_of_lowValues inst (inst.stored channel entries mean) _ channel enough.le
      after.isLength rfl
  refine ⟨?_, List.length_set.trans kept.means, ?_, fun other => ?_⟩
  · rwa [length_stored enough.le after.isLength]
  · intro other member
    rcases List.mem_or_eq_of_mem_set member with old | rfl
    · exact kept.smoothed other old
    · exact isMean
  · by_cases same : other = channel
    · rw [same, Function.update_self, isBlock]
      exact after
    · rw [Function.update_of_ne same, others other same]
      exact kept.entries other

/-- A call returns a feature, and counts for its channel. -/
theorem Kept.findMinimum
    (kept : inst.Kept counted)
    (current : counted channel = inst.frameCounter)
    {featureValue : Int}
    (isFeature : IsFeature featureValue) :
    Returns (Vad.findMinimum inst featureValue channel) fun found =>
      IsFeature found.1 ∧
        found.2.frameCounter = inst.frameCounter ∧
        found.2.lowValues.length = inst.lowValues.length ∧
        found.2.Kept (Function.update counted channel (inst.frameCounter + 1)) := by
  obtain ⟨aged, ages, updated⟩ := kept.updateLowValues channel featureValue
  have before := kept.entries channel
  rw [current] at before
  have after := entriesKept_inserted before ages isFeature
  have inMeans : channel.val < inst.meanValue.length := by
    rw [kept.means]
    exact channel.isLt
  have isMean :=
    smoothMedian_isFeature
      (currentMedian_isFeature after (inst.lowValues.drop (16 * channel + 16)))
      (kept.smoothed _ (List.getElem_mem inMeans)) inst.frameCounter
  have returned :
      ∃ mean,
        IsFeature mean ∧
          Vad.findMinimum inst featureValue channel =
            some (mean, inst.stored channel (inserted featureValue aged) mean) := by
    refine ⟨_, isMean, ?_⟩
    simp only [Vad.findMinimum, updated, List.getElem?_eq_getElem inMeans,
      Option.bind_eq_bind, Option.bind_some]
    rfl
  obtain ⟨mean, isFeature, returned⟩ := returned
  exact
    ⟨_, returned, isFeature, rfl, length_stored kept.isLength.le after.isLength _ _,
      kept.stored after isFeature⟩

end LowValueInst

end ApmSdk.Vad
