import ApmSdk.LabelledPath
import ApmSdk.VadMinimum
import Mathlib.Data.List.GetD
import Mathlib.Data.List.Sort

namespace ApmSdk.Vad

/-!
# Runs of calls that keep the smallest features

Without a value that is 100 calls old a call of `WebRtcVad_FindMinimum` inserts the feature in
order and keeps the 16 smallest.  To remove a value it reads behind the entries of the channel.
-/

/-! ## Insertion in order -/

/-- An item goes between those that it does not come before and those that it does. -/
theorem orderedInsert_between
    {Item : Type*}
    {before : Item → Item → Prop}
    [DecidableRel before]
    {new : Item}
    {front behind : List Item}
    (notBefore : ∀ item ∈ front, ¬ before new item)
    (isBefore : ∀ item ∈ behind, before new item) :
    (front ++ behind).orderedInsert before new = front ++ new :: behind := by
  induction front with
  | nil =>
      cases behind with
      | nil =>
          rfl
      | cons item rest =>
          exact List.orderedInsert_cons_of_le _ rest (isBefore item List.mem_cons_self)
  | cons item rest inductionHypothesis =>
      rw [List.forall_mem_cons] at notBefore
      rw [List.cons_append, List.orderedInsert_of_not_le _ _ notBefore.1,
        inductionHypothesis notBefore.2, List.cons_append]

/-- The smaller value comes first. -/
def Smaller (first second : LowValue) : Prop :=
  first.value < second.value

instance : DecidableRel Smaller :=
  fun first second => inferInstanceAs (Decidable (first.value < second.value))

/-- The values are in order. -/
def InOrder (entries : List LowValue) : Prop :=
  entries.Pairwise fun first second => first.value ≤ second.value

instance : DecidablePred InOrder :=
  fun entries => inferInstanceAs (Decidable (entries.Pairwise _))

/-- An insertion in order keeps the order. -/
theorem inOrder_orderedInsert
    {entries : List LowValue}
    (sorted : InOrder entries)
    (new : LowValue) :
    InOrder (entries.orderedInsert Smaller new) := by
  induction entries with
  | nil =>
      exact List.pairwise_singleton _ _
  | cons entry rest inductionHypothesis =>
      obtain ⟨smallest, restSorted⟩ := List.pairwise_cons.mp sorted
      by_cases first : Smaller new entry
      · rw [List.orderedInsert_cons_of_le _ _ first]
        have below : new.value ≤ entry.value := Int.le_of_lt first
        refine List.pairwise_cons.mpr ⟨?_, sorted⟩
        exact
          List.forall_mem_cons.mpr
            ⟨below, fun other inRest => Int.le_trans below (smallest other inRest)⟩
      · rw [List.orderedInsert_of_not_le _ _ first]
        refine List.pairwise_cons.mpr ⟨fun other member => ?_, inductionHypothesis restSorted⟩
        rcases (List.mem_orderedInsert _).mp member with rfl | inRest
        · exact Int.not_lt.mp first
        · exact smallest other inRest

/-- The 16 smallest after a call: the values that are not 100 calls old, each a call older,
padded, and the new one in order. -/
def keepSmallest
    (featureValue : Int)
    (block : List LowValue) : List LowValue :=
  let kept := (block.filter fun entry => entry.age ≠ 100).map LowValue.older
  let padded := kept ++ List.replicate (16 - kept.length) padding
  (padded.orderedInsert Smaller ⟨featureValue, 1⟩).take 16

theorem keepSmallest_of_stays
    {block : List LowValue}
    (isLength : block.length = 16)
    (stays : ∀ entry ∈ block, entry.Stays)
    (featureValue : Int) :
    keepSmallest featureValue block =
      ((block.map LowValue.older).orderedInsert Smaller ⟨featureValue, 1⟩).take 16 := by
  have all : (block.filter fun entry => entry.age ≠ 100) = block := by
    rw [List.filter_eq_self]
    intro entry member
    have young := (stays entry member).2
    exact decide_eq_true (by omega)
  rw [keepSmallest, all, List.length_map, isLength, Nat.sub_self,
    List.replicate_zero, List.append_nil]

theorem inOrder_map_older
    {block : List LowValue}
    (sorted : InOrder block) :
    InOrder (block.map LowValue.older) :=
  List.pairwise_map.mpr sorted

/-! ## A call on the entries of a channel -/

section Block

variable {block : List LowValue}

theorem valueAt_append
    (isLength : block.length = 16)
    (rest : List LowValue)
    (index : Fin 16) :
    ∃ inside : index.val < block.length,
      valueAt (block ++ rest) index = block[index.val].value := by
  have inside : index.val < block.length := by
    rw [isLength]
    exact index.isLt
  refine ⟨inside, ?_⟩
  rw [valueAt, List.getD_append _ _ _ _ inside, List.getD_eq_getElem _ _ inside]

theorem monotone_valueAt
    (isLength : block.length = 16)
    (sorted : InOrder block)
    (rest : List LowValue) :
    Monotone (valueAt (block ++ rest)) := by
  intro first second notBehind
  obtain ⟨firstInside, isFirst⟩ := valueAt_append isLength rest first
  obtain ⟨secondInside, isSecond⟩ := valueAt_append isLength rest second
  rcases Nat.eq_or_lt_of_le notBehind with same | inFront
  · rw [Fin.ext same]
  · rw [isFirst, isSecond]
    exact List.pairwise_iff_getElem.mp sorted _ _ firstInside secondInside inFront

/-- Where a position separates the values, an insertion in order goes there. -/
theorem orderedInsert_of_separates
    {rest : List LowValue}
    {featureValue : Int}
    {position : Nat}
    (isLength : block.length = 16)
    (separates : Separates (valueAt (block ++ rest)) featureValue position) :
    block.orderedInsert Smaller ⟨featureValue, 1⟩ =
      block.take position ++ ⟨featureValue, 1⟩ :: block.drop position := by
  have valueAt_eq :
      ∀ {i : Nat} (inside : i < block.length),
        valueAt (block ++ rest) ⟨i, by omega⟩ = block[i].value :=
    fun inside => (valueAt_append isLength rest ⟨_, by omega⟩).2
  conv_lhs => rw [← List.take_append_drop position block]
  refine orderedInsert_between (fun entry member => ?_) fun entry member => ?_
  · obtain ⟨i, inFront, rfl⟩ := List.mem_take_iff_getElem.mp member
    have notLarger := separates.front ⟨i, by omega⟩ (by dsimp only; omega)
    rw [valueAt_eq (by omega)] at notLarger
    exact Int.not_lt.mpr notLarger
  · obtain ⟨i, isBehind, rfl⟩ := List.mem_drop_iff_getElem.mp member
    have larger := separates.behind ⟨position + i, by omega⟩ (by dsimp only; omega)
    rw [valueAt_eq (by omega)] at larger
    exact larger

/-- An insertion at a position keeps the 16 smallest. -/
theorem insertAt_take
    {position : Nat}
    (isLength : block.length = 16)
    (inside : position < 16)
    (featureValue : Int)
    (rest : List LowValue) :
    insertAt featureValue position (block ++ rest) =
      some
        ((block.take position ++ ⟨featureValue, 1⟩ :: block.drop position).take 16 ++
          rest) := by
  have isFront : (block.take position).length = position := by
    rw [List.length_take]
    omega
  have nonempty : block.drop position ≠ [] := by
    rw [Ne, List.drop_eq_nil_iff]
    omega
  obtain ⟨moved, last, isBehind⟩ :
      ∃ moved last, block.drop position = moved ++ [last] :=
    ⟨_, _, (List.dropLast_append_getLast nonempty).symm⟩
  have isMoved : (block.take position).length + moved.length = 15 := by
    have lengths := congrArg List.length isBehind
    simp only [List.length_drop, List.length_append, List.length_singleton] at lengths
    omega
  have shape : block ++ rest = block.take position ++ (moved ++ last :: rest) := by
    conv_lhs => rw [← List.take_append_drop position block]
    rw [isBehind]
    simp
  have kept :
      (block.take position ++ ⟨featureValue, 1⟩ :: block.drop position).take 16 =
        block.take position ++ ⟨featureValue, 1⟩ :: moved := by
    rw [isBehind, ← List.cons_append, ← List.append_assoc]
    refine List.take_left' ?_
    rw [List.length_append, List.length_cons]
    omega
  have inserted := @insertAt_eq _ _ rest last isMoved featureValue
  rw [isFront] at inserted
  rw [shape, inserted, kept, List.append_assoc, List.cons_append]

/-- A call inserts the feature into what the loop over the ages leaves, and keeps the 16
smallest. -/
theorem updateLowValues_of_ages
    {aged : List LowValue}
    {rest : List LowValue}
    (isLength : aged.length = 16)
    (sorted : InOrder aged)
    (ages : updateAges 16 0 (block ++ rest) = some (aged ++ rest))
    (featureValue : Int) :
    updateLowValues featureValue (block ++ rest) =
      some ((aged.orderedInsert Smaller ⟨featureValue, 1⟩).take 16 ++ rest) := by
  obtain ⟨separates, inside⟩ :=
    findPosition_spec (monotone_valueAt isLength sorted rest) featureValue
  rw [orderedInsert_of_separates isLength separates, updateLowValues, ages,
    Option.bind_eq_bind, Option.bind_some]
  cases found : findPosition (valueAt (aged ++ rest)) featureValue with
  | none =>
      dsimp only
      rw [Option.getD_none, List.take_of_length_le (Nat.le_of_eq isLength),
        List.take_left' isLength]
  | some position =>
      exact insertAt_take isLength (inside position found) featureValue rest

/-- A call on the entries of a channel without one that is 100 calls old keeps the 16 smallest,
and those of the channels behind it. -/
theorem updateLowValues_of_stays
    (isLength : block.length = 16)
    (sorted : InOrder block)
    (stays : ∀ entry ∈ block, entry.Stays)
    (featureValue : Int)
    (rest : List LowValue) :
    updateLowValues featureValue (block ++ rest) =
      some (keepSmallest featureValue block ++ rest) := by
  have aged : updateAges 16 0 (block ++ rest) = some (block.map LowValue.older ++ rest) := by
    have ages := @updateAges_of_stays [] block rest stays
    rwa [isLength] at ages
  have olderLength : (block.map LowValue.older).length = 16 := by
    rw [List.length_map, isLength]
  rw [keepSmallest_of_stays isLength stays]
  exact updateLowValues_of_ages olderLength (inOrder_map_older sorted) aged featureValue

/-- A call leaves the channel where one of its entries is 100 calls old. -/
theorem updateLowValues_of_expired
    (isLength : block.length = 16)
    (ages : ∀ entry ∈ block, 0 ≤ entry.age ∧ entry.age ≤ 100)
    (expired : ∃ entry ∈ block, entry.age = 100)
    (featureValue : Int) :
    updateLowValues featureValue block = none := by
  have leaves := @updateAges_of_expired [] block isLength ages expired
  rw [isLength] at leaves
  rw [updateLowValues]
  exact congrArg (Option.bind · _) leaves

theorem length_keepSmallest (featureValue : Int) :
    (keepSmallest featureValue block).length = 16 := by
  simp only [keepSmallest, List.length_take, List.orderedInsert_length,
    List.length_append, List.length_replicate]
  omega

/-- The 16 smallest are in order. -/
theorem inOrder_keepSmallest
    (isLength : block.length = 16)
    (sorted : InOrder block)
    (stays : ∀ entry ∈ block, entry.Stays)
    (featureValue : Int) :
    InOrder (keepSmallest featureValue block) := by
  rw [keepSmallest_of_stays isLength stays]
  exact
    (inOrder_orderedInsert (inOrder_map_older sorted) _).sublist
      (List.take_sublist _ _)

/-- A call later no age is above 100. -/
theorem ages_keepSmallest
    (isLength : block.length = 16)
    (stays : ∀ entry ∈ block, entry.Stays)
    (featureValue : Int) :
    ∀ entry ∈ keepSmallest featureValue block, 0 ≤ entry.age ∧ entry.age ≤ 100 := by
  intro entry member
  rw [keepSmallest_of_stays isLength stays] at member
  rcases (List.mem_orderedInsert _).mp (List.mem_of_mem_take member) with rfl | isOlder
  · exact ⟨Int.one_nonneg, by dsimp only; omega⟩
  · obtain ⟨before, inBlock, rfl⟩ := List.mem_map.mp isOlder
    obtain ⟨nonneg, young⟩ := stays before inBlock
    exact ⟨Int.le_add_one nonneg, Int.add_one_le_of_lt young⟩

end Block

/-! ## Calls on an instance -/

/-- A call of `WebRtcVad_FindMinimum`, with `frame_counter` at that time. -/
structure FindMinimumCall where
  featureValue : Int
  channel : Fin kNumChannels
  frameCounter : Int
deriving Repr, DecidableEq

namespace LowValueInst

/-- The instance behind a call. -/
def call (inst : LowValueInst) (made : FindMinimumCall) : Option LowValueInst :=
  (findMinimum { inst with frameCounter := made.frameCounter } made.featureValue
    made.channel).map Prod.snd

/-- The 16 entries of a channel. -/
def block (inst : LowValueInst) (channel : Fin kNumChannels) : List LowValue :=
  (inst.lowValues.drop (16 * channel)).take 16

/-- A call stays within the entries of its channel and makes of them the 16 smallest, in
order; those of the other channels stay as they are. -/
structure KeepsSmallest (inst : LowValueInst) (made : FindMinimumCall) : Prop where
  within : (updateLowValues made.featureValue (inst.block made.channel)).isSome
  kept :
    ∃ target,
      inst.call made = some target ∧
        target.block made.channel =
          keepSmallest made.featureValue (inst.block made.channel) ∧
        InOrder (target.block made.channel) ∧
        ∀ other ≠ made.channel, target.block other = inst.block other

/-- No entry of the channel is 100 calls old when a call is made. -/
def NoneExpired (inst : LowValueInst) (made : FindMinimumCall) : Prop :=
  ∀ entry ∈ inst.block made.channel, entry.age ≠ 100

instance (inst : LowValueInst) (made : FindMinimumCall) :
    Decidable (inst.NoneExpired made) :=
  inferInstanceAs (Decidable (∀ entry ∈ inst.block made.channel, entry.age ≠ 100))

/-- There are 16 entries of each channel, in order, and no age is above 100. -/
structure Sound (inst : LowValueInst) : Prop where
  isLength : inst.lowValues.length = 16 * kNumChannels
  means : inst.meanValue.length = kNumChannels
  sorted : ∀ channel, InOrder (inst.block channel)
  ages : ∀ channel, ∀ entry ∈ inst.block channel, 0 ≤ entry.age ∧ entry.age ≤ 100

theorem sound_initLowValues : initLowValues.Sound where
  isLength := rfl
  means := rfl
  sorted := by decide
  ages := by decide

variable {inst target : LowValueInst}
variable {made : FindMinimumCall}

theorem end_le (channel : Fin kNumChannels) :
    16 * channel.val + 16 ≤ 16 * kNumChannels := by
  have inside := channel.isLt
  omega

theorem Sound.length_block
    (sound : inst.Sound)
    (channel : Fin kNumChannels) :
    (inst.block channel).length = 16 := by
  have inside := end_le channel
  rw [block, List.length_take, List.length_drop, sound.isLength]
  omega

/-- The entries from a channel on are its own ones and those behind. -/
theorem lowValues_eq (channel : Fin kNumChannels) :
    inst.lowValues.drop (16 * channel) =
      inst.block channel ++ inst.lowValues.drop (16 * channel + 16) := by
  rw [block, ← List.drop_drop, List.take_append_drop]

theorem Sound.stays
    (sound : inst.Sound)
    (clean : inst.NoneExpired made) :
    ∀ entry ∈ inst.block made.channel, entry.Stays := by
  intro entry member
  have ages := sound.ages made.channel entry member
  have young := clean entry member
  exact ⟨ages.1, by omega⟩

/-- What a call makes of an instance where nothing is removed. -/
theorem call_of_noneExpired
    (sound : inst.Sound)
    (clean : inst.NoneExpired made) :
    ∃ target,
      inst.call made = some target ∧
        target.lowValues =
          inst.lowValues.take (16 * made.channel) ++
            (keepSmallest made.featureValue (inst.block made.channel) ++
              inst.lowValues.drop (16 * made.channel + 16)) ∧
        target.meanValue.length = inst.meanValue.length := by
  have inMeans : made.channel.val < inst.meanValue.length := by
    rw [sound.means]
    exact made.channel.isLt
  have updated :=
    updateLowValues_of_stays (sound.length_block made.channel)
      (sound.sorted made.channel) (sound.stays clean) made.featureValue
      (inst.lowValues.drop (16 * made.channel + 16))
  rw [← lowValues_eq] at updated
  have called :
      ∀ memory,
        updateLowValues made.featureValue (inst.lowValues.drop (16 * made.channel)) =
            some memory →
          inst.call made =
            some
              { lowValues := inst.lowValues.take (16 * made.channel) ++ memory
                meanValue := inst.meanValue.set made.channel
                  (smoothMedian made.frameCounter
                    (currentMedian made.frameCounter memory)
                    inst.meanValue[made.channel.val])
                frameCounter := made.frameCounter } := by
    intro memory isMemory
    simp only [call, findMinimum, isMemory, List.getElem?_eq_getElem inMeans]
    rfl
  exact ⟨_, called _ updated, rfl, List.length_set⟩

/-- Entries that replace those of a channel are its own ones then, and no others change. -/
theorem block_of_lowValues
    {kept : List LowValue}
    {channel : Fin kNumChannels}
    (isLength : 16 * kNumChannels ≤ inst.lowValues.length)
    (isKept : kept.length = 16)
    (isTarget :
      target.lowValues =
        inst.lowValues.take (16 * channel) ++
          (kept ++ inst.lowValues.drop (16 * channel + 16))) :
    target.block channel = kept ∧
      ∀ other ≠ channel, target.block other = inst.block other := by
  have inside := end_le channel
  have isFront : (inst.lowValues.take (16 * channel)).length = 16 * channel := by
    rw [List.length_take]
    omega
  constructor
  · rw [block, isTarget, List.drop_left' isFront, List.take_left' isKept]
  · intro other differs
    have otherInside := end_le other
    have apart : other.val < channel.val ∨ channel.val < other.val :=
      Nat.lt_or_gt_of_ne fun same => differs (Fin.ext same)
    refine List.ext_getElem? fun k => ?_
    simp only [block, isTarget, List.getElem?_take, List.getElem?_drop,
      List.getElem?_append, isFront, isKept]
    split
    next inBlock =>
        rcases apart with inFront | isBehind
        · rw [if_pos (by omega), if_pos (by omega)]
        · rw [if_neg (by omega), if_neg (by omega)]
          exact congrArg (inst.lowValues[·]?) (by omega)
    next =>
        rfl

/-- A call keeps the 16 smallest if and only if none of them is 100 calls old. -/
theorem keepsSmallest_iff (sound : inst.Sound) :
    inst.KeepsSmallest made ↔ inst.NoneExpired made := by
  constructor
  · intro keeps
    by_contra some_expired
    have expired : ∃ entry ∈ inst.block made.channel, entry.age = 100 := by
      unfold NoneExpired at some_expired
      push Not at some_expired
      exact some_expired
    have leaves :=
      updateLowValues_of_expired (sound.length_block made.channel)
        (sound.ages made.channel) expired made.featureValue
    have within := keeps.within
    rw [leaves] at within
    contradiction
  · intro clean
    obtain ⟨target, called, isTarget, -⟩ := call_of_noneExpired sound clean
    obtain ⟨isBlock, others⟩ :=
      block_of_lowValues sound.isLength.ge (length_keepSmallest _) isTarget
    have alone :=
      updateLowValues_of_stays (sound.length_block made.channel)
        (sound.sorted made.channel) (sound.stays clean) made.featureValue []
    rw [List.append_nil] at alone
    have sorted :=
      inOrder_keepSmallest (sound.length_block made.channel)
        (sound.sorted made.channel) (sound.stays clean) made.featureValue
    exact
      ⟨Option.isSome_of_eq_some alone, target, called, isBlock,
        isBlock ▸ sorted, others⟩

/-- A call that removes nothing keeps the invariant. -/
theorem sound_of_call
    (sound : inst.Sound)
    (clean : inst.NoneExpired made)
    (called : inst.call made = some target) :
    target.Sound := by
  obtain ⟨other, isOther, isTarget, means⟩ := call_of_noneExpired sound clean
  obtain rfl : target = other := Option.some.inj (called.symm.trans isOther)
  obtain ⟨isBlock, others⟩ :=
    block_of_lowValues sound.isLength.ge (length_keepSmallest _) isTarget
  have inside := end_le made.channel
  constructor
  · rw [isTarget, List.length_append, List.length_append, length_keepSmallest,
      List.length_take, List.length_drop, sound.isLength]
    omega
  · rw [means, sound.means]
  · intro channel
    by_cases same : channel = made.channel
    · rw [same, isBlock]
      exact
        inOrder_keepSmallest (sound.length_block made.channel)
          (sound.sorted made.channel) (sound.stays clean) made.featureValue
    · rw [others channel same]
      exact sound.sorted channel
  · intro channel
    by_cases same : channel = made.channel
    · rw [same, isBlock]
      exact
        ages_keepSmallest (sound.length_block made.channel) (sound.stays clean)
          made.featureValue
    · rw [others channel same]
      exact sound.ages channel

/-- Along a run from the initialisation the calls keep the 16 smallest if and only if each is
made while no value of its channel is 100 calls old. -/
theorem keepsSmallest_along_iff (calls : List FindMinimumCall) :
    AlongRun call KeepsSmallest initLowValues calls ↔
      AlongRun call NoneExpired initLowValues calls :=
  AlongRun.iff_of_guard Sound
    (fun sound clean called => sound_of_call sound clean called)
    (fun sound => keepsSmallest_iff sound)
    sound_initLowValues calls

/-! ## Two values that age differently -/

/-- Two small features, and large ones after them. -/
def twoSmallFeatures (count : Nat) : List FindMinimumCall :=
  (List.range count).map fun (i : Nat) =>
    { featureValue := if i = 0 then 5 else if i = 1 then 6 else 10000
      channel := 0
      frameCounter := (i : Int) }

/-- What the call behind 100 others finds and leaves: the value next to the one that is removed
is 99 calls old before it and behind it. -/
theorem twoSmallFeatures_last :
    ((twoSmallFeatures 100).foldlM call initLowValues).map (fun inst =>
        ((inst.block 0)[1]?,
          (updateLowValues 10000 (inst.block 0)).isSome,
          (inst.call ⟨10000, 0, 100⟩).map fun target => (target.block 0)[0]?)) =
      some (some ⟨6, 99⟩, false, some (some ⟨6, 99⟩)) := by
  decide +kernel

/-- The value next to the one that is removed does not age. -/
theorem not_keepsSmallest_twoSmallFeatures :
    ¬ AlongRun call KeepsSmallest initLowValues (twoSmallFeatures 101) ∧
      ∃ inst target,
        (twoSmallFeatures 100).foldlM call initLowValues = some inst ∧
          inst.call ⟨10000, 0, 100⟩ = some target ∧
          (inst.block 0)[1]? = some ⟨6, 99⟩ ∧
          (target.block 0)[0]? = some ⟨6, 99⟩ := by
  obtain ⟨inst, reached, found⟩ := Option.map_eq_some_iff.mp twoSmallFeatures_last
  simp only [Prod.mk.injEq] at found
  obtain ⟨before, leaves, made⟩ := found
  obtain ⟨target, called, behind⟩ := Option.map_eq_some_iff.mp made
  refine ⟨fun along => ?_, inst, target, reached, called, before, behind⟩
  have split :
      twoSmallFeatures 101 = twoSmallFeatures 100 ++ [⟨10000, 0, 100⟩] := by
    rw [twoSmallFeatures, List.range_succ, List.map_append]
    rfl
  rw [split] at along
  have keeps := along.last reached
  exact absurd (leaves.symm.trans keeps.within) Bool.false_ne_true

end LowValueInst

end ApmSdk.Vad
